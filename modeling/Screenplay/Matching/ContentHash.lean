import Screenplay.Image.Gray

/-!
A cheap fingerprint of a picture: every eighth byte in a rolling polynomial, seeded with the
dimensions. Two pictures may share one; whoever uses it has to look at the picture as well.
-/
namespace Screenplay

/-- How far the sampled bytes lie apart. -/
def hashStride : Nat := 8

/-- Every `hashStride`-th byte. -/
def GrayBuffer.sampled (g : GrayBuffer) : List UInt8 :=
  (List.range ((g.data.size + hashStride - 1) / hashStride)).map fun i => g.data.getD (i * hashStride) 0

def GrayBuffer.contentHash (g : GrayBuffer) : UInt64 :=
  let seed : UInt64 := (g.width.toUInt64 <<< 32) ^^^ g.height.toUInt64
  g.sampled.foldl (fun h b => h * 31 + b.toUInt64) (seed * 0x9E3779B97F4A7C15)

end Screenplay
