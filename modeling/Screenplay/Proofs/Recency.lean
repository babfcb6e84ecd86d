import Mathlib.Data.List.Nodup
import Screenplay.Matching.LocationCache

/-!
The memory of locations is a list by use. A cache keeps its map and its queue apart; together they
are one list of locations from the least to the most recently used (`LocationCache.Lists`). Every
request does to both what it does to the list (`LocationCache.Lists.serve`), so a cache answers as
the list does (`LocationCache.serveAll_eq_recency`).
-/
namespace Screenplay

/-- What a cache is asked for, and the time of the clock. -/
inductive CacheRequest where
  | get (key : UInt64) (now : Nat)
  | insert (key : UInt64) (x y : Int) (now : Nat)
  | remove (key : UInt64)
  | clear
  deriving DecidableEq, Repr

/-- The answers to requests, one after the other, and what is left behind. -/
def serveAll {σ ρ α : Type} (serve : σ → ρ → α × σ) : σ → List ρ → List α × σ
  | s, [] => ([], s)
  | s, r :: rest =>
    let (first, s) := serve s r
    let (later, s) := serveAll serve s rest
    (first :: later, s)

/-- A cache gives back what it looked up or removed. -/
def LocationCache.serve (c : LocationCache) : CacheRequest → Option CachedLocation × LocationCache
  | .get key now => c.get key now
  | .insert key x y now => (none, c.insert key x y now)
  | .remove key => (c.find? key, c.remove key)
  | .clear => (none, c.clear)

/-! ### The list -/

/-- Locations with their keys, from the least to the most recently used. -/
structure RecencyList where
  listed : List (UInt64 × CachedLocation) := []
  /-- How many locations may be listed. -/
  bound : Nat
  ttlMs : Nat
  deriving DecidableEq, Repr

namespace RecencyList

def without (l : RecencyList) (key : UInt64) : RecencyList :=
  { l with listed := l.listed.filter fun e => e.1 != key }

/-- The location comes to the back of the list, and no other one has its key. -/
def atBack (l : RecencyList) (key : UInt64) (location : CachedLocation) : RecencyList :=
  { l with listed := (l.without key).listed ++ [(key, location)] }

/-- The front of a list that is too long is dropped. -/
def trim (l : RecencyList) : RecencyList :=
  if l.listed.length ≤ l.bound then l else { l with listed := l.listed.tail }

/-- A location that is asked for comes to the back with the time at which it was put in; past its
time to live it is dropped. Of a time that is still to come the age is 0. -/
def serve (l : RecencyList) : CacheRequest → Option CachedLocation × RecencyList
  | .get key now =>
    match l.listed.lookup key with
    | none => (none, l)
    | some location =>
      if now - location.time ≤ l.ttlMs then (some location, l.atBack key location)
      else (none, l.without key)
  | .insert key x y now => (none, (l.atBack key { x, y, time := now }).trim)
  | .remove key => (l.listed.lookup key, l.without key)
  | .clear => (none, { l with listed := [] })

end RecencyList

/-- What was put in last under a key. -/
def CacheRequest.lastInsert (key : UInt64) (requests : List CacheRequest) : Option CachedLocation :=
  (requests.filterMap fun
    | .insert k x y now => if k = key then some { x, y, time := now } else none
    | _ => none).getLast?

/-- Whatever is listed was put in last under its key. -/
def RecencyList.Recalls (l : RecencyList) (past : List CacheRequest) : Prop :=
  ∀ key location, (key, location) ∈ l.listed → CacheRequest.lastInsert key past = some location

namespace LocationCache

/-- The map and the queue of the cache are those of the list. -/
structure Mirrors (c : LocationCache) (l : RecencyList) : Prop where
  order : c.order = l.listed.map Prod.fst
  entries : c.entries.Perm l.listed
  distinct : (l.listed.map Prod.fst).Nodup
  capacity : c.capacity = l.bound
  ttlMs : c.ttlMs = l.ttlMs

/-- The cache is the list, which is not too long. -/
structure Lists (c : LocationCache) (l : RecencyList) : Prop extends c.Mirrors l where
  bounded : l.listed.length ≤ l.bound

end LocationCache

/-! ### Keys -/

variable {entries : List (UInt64 × CachedLocation)} {key : UInt64} {location : CachedLocation}

/-- Under distinct keys everything is found. -/
theorem lookup_eq_some_iff_mem (distinct : (entries.map Prod.fst).Nodup) :
    entries.lookup key = some location ↔ (key, location) ∈ entries := by
  rw [List.lookup_eq_some_iff]
  constructor
  · rintro ⟨before, after, rfl, _⟩
    simp
  · intro member
    obtain ⟨before, after, rfl⟩ := List.append_of_mem member
    refine ⟨before, after, rfl, ?_⟩
    intro e early
    rw [List.map_append, List.nodup_append] at distinct
    obtain ⟨_, _, apart⟩ := distinct
    have other := apart e.1 (List.mem_map_of_mem early) key (by simp)
    simpa using Ne.symm other

theorem keys_filter (entries : List (UInt64 × CachedLocation)) (key : UInt64) :
    (entries.filter fun e => e.1 != key).map Prod.fst =
      (entries.map Prod.fst).filter fun k => k != key := by
  rw [List.filter_map]
  rfl

theorem keys_atBack (l : RecencyList) (key : UInt64) (location : CachedLocation) :
    (l.atBack key location).listed.map Prod.fst =
      ((l.listed.map Prod.fst).filter fun k => k != key) ++ [key] := by
  simp only [RecencyList.atBack, RecencyList.without, List.map_append, keys_filter, List.map_cons,
    List.map_nil]

theorem distinct_atBack {l : RecencyList} (distinct : (l.listed.map Prod.fst).Nodup)
    (key : UInt64) (location : CachedLocation) :
    ((l.atBack key location).listed.map Prod.fst).Nodup := by
  rw [keys_atBack, List.nodup_append]
  refine ⟨distinct.filter _, List.nodup_singleton key, ?_⟩
  intro k member k' last
  rw [List.mem_singleton.mp last]
  simpa using (List.mem_filter.mp member).2

/-- To come to the back is to change places. -/
theorem atBack_perm {l : RecencyList} (distinct : (l.listed.map Prod.fst).Nodup)
    (known : (key, location) ∈ l.listed) : (l.atBack key location).listed.Perm l.listed := by
  have distinct' := distinct_atBack distinct key location
  rw [List.perm_ext_iff_of_nodup (.of_map Prod.fst distinct') (.of_map Prod.fst distinct)]
  intro e
  simp only [RecencyList.atBack, RecencyList.without, List.mem_append, List.mem_filter,
    List.mem_singleton, bne_iff_ne]
  constructor
  · rintro (⟨member, _⟩ | rfl)
    · exact member
    · exact known
  · intro member
    by_cases same : e.1 = key
    · exact .inr (List.inj_on_of_nodup_map distinct member known same)
    · exact .inl ⟨member, same⟩

/-! ### What each operation does to the list -/

namespace LocationCache

variable {c : LocationCache} {l : RecencyList}

namespace Mirrors

theorem size_eq (mirrors : c.Mirrors l) : c.size = l.listed.length := mirrors.entries.length_eq

theorem find?_eq (mirrors : c.Mirrors l) (key : UInt64) : c.find? key = l.listed.lookup key := by
  have distinct : (c.entries.map Prod.fst).Nodup :=
    (mirrors.entries.map Prod.fst).nodup_iff.mpr mirrors.distinct
  apply Option.ext
  intro location
  rw [find?, lookup_eq_some_iff_mem distinct, lookup_eq_some_iff_mem mirrors.distinct]
  exact mirrors.entries.mem_iff

theorem remove (mirrors : c.Mirrors l) (key : UInt64) : (c.remove key).Mirrors (l.without key) where
  order := by
    rw [RecencyList.without, keys_filter, ← mirrors.order]
    rfl
  entries := mirrors.entries.filter _
  distinct := by
    rw [RecencyList.without, keys_filter]
    exact mirrors.distinct.filter _
  capacity := mirrors.capacity
  ttlMs := mirrors.ttlMs

theorem touch (mirrors : c.Mirrors l) (known : (key, location) ∈ l.listed) :
    (c.touch key).Mirrors (l.atBack key location) where
  order := by
    rw [keys_atBack, ← mirrors.order]
    rfl
  entries := mirrors.entries.trans (atBack_perm mirrors.distinct known).symm
  distinct := distinct_atBack mirrors.distinct key location
  capacity := mirrors.capacity
  ttlMs := mirrors.ttlMs

/-- A location is stored in place of any other one with its key. -/
theorem store (mirrors : c.Mirrors l) (key : UInt64) (location : CachedLocation) :
    (LocationCache.touch { c with entries := (key, location) :: (c.remove key).entries } key).Mirrors
      (l.atBack key location) where
  order := by
    rw [keys_atBack, ← mirrors.order]
    rfl
  entries := by
    have front := (mirrors.remove key).entries.cons (key, location)
    exact front.trans (List.perm_append_singleton _ _).symm
  distinct := distinct_atBack mirrors.distinct key location
  capacity := mirrors.capacity
  ttlMs := mirrors.ttlMs

/-- Nothing is evicted while the bound is kept. -/
theorem evict_within (within : c.size ≤ c.capacity) (fuel : Nat) : evict fuel c = c := by
  cases fuel with
  | zero => rfl
  | succ fuel => rw [evict, if_pos within]

/-- Without the front key the cache is the rest of the list. -/
theorem dropFront {oldest : UInt64} {rest : List (UInt64 × CachedLocation)}
    (mirrors : c.Mirrors l) (split : l.listed = (oldest, location) :: rest) :
    Mirrors { c with
        order := rest.map Prod.fst
        entries := c.entries.filter fun e => e.1 != oldest }
      { l with listed := rest } := by
  have distinct := mirrors.distinct
  rw [split, List.map_cons, List.nodup_cons] at distinct
  obtain ⟨fresh, distinct⟩ := distinct
  have others : (l.listed.filter fun e => e.1 != oldest) = rest := by
    rw [split, List.filter_cons_of_neg (by simp), List.filter_eq_self]
    intro e member
    have listed : e.1 ∈ rest.map Prod.fst := List.mem_map_of_mem member
    have other : e.1 ≠ oldest := fun same => fresh (same ▸ listed)
    simpa using other
  constructor
  · rfl
  · exact others ▸ mirrors.entries.filter _
  · exact distinct
  · exact mirrors.capacity
  · exact mirrors.ttlMs

/-- One location past the bound is one too many, and the front goes. -/
theorem evict (mirrors : c.Mirrors l) (long : l.listed.length ≤ l.bound + 1) :
    (LocationCache.evict c.order.length c).Lists l.trim := by
  rw [RecencyList.trim]
  split
  next within =>
    have kept : c.size ≤ c.capacity := by
      rw [mirrors.size_eq, mirrors.capacity]
      exact within
    rw [evict_within kept]
    exact { mirrors with bounded := within }
  next past =>
    obtain ⟨⟨oldest, location⟩, rest, split⟩ : ∃ e rest, l.listed = e :: rest :=
      List.exists_cons_of_length_pos (by omega)
    have beyond : ¬ c.size ≤ c.capacity := by
      rw [mirrors.size_eq, mirrors.capacity]
      exact past
    have order : c.order = oldest :: rest.map Prod.fst := by rw [mirrors.order, split, List.map_cons]
    have dropped := mirrors.dropFront split
    have short : rest.length ≤ l.bound := by
      rw [split, List.length_cons] at long
      exact Nat.le_of_succ_le_succ long
    rw [order, List.length_cons, LocationCache.evict, if_neg beyond]
    simp only [order]
    rw [evict_within (by rw [dropped.size_eq, dropped.capacity]; exact short)]
    rw [split, List.tail_cons]
    exact { dropped with bounded := short }

end Mirrors

namespace Lists

theorem length_atBack (lists : c.Lists l) (key : UInt64) (location : CachedLocation) :
    (l.atBack key location).listed.length ≤ l.bound + 1 := by
  have fewer : (l.without key).listed.length ≤ l.listed.length := List.length_filter_le _ _
  rw [RecencyList.atBack, List.length_append, List.length_singleton]
  have bounded := lists.bounded
  omega

theorem insert (lists : c.Lists l) (key : UInt64) (x y : Int) (now : Nat) :
    (c.insert key x y now).Lists (l.atBack key { x, y, time := now }).trim :=
  (lists.toMirrors.store key { x, y, time := now }).evict (lists.length_atBack key _)

theorem remove (lists : c.Lists l) (key : UInt64) : (c.remove key).Lists (l.without key) where
  toMirrors := lists.toMirrors.remove key
  bounded := Nat.le_trans (List.length_filter_le _ _) lists.bounded

/-- A location that is looked up is used, unless it is too old. -/
theorem get (lists : c.Lists l) (key : UInt64) (now : Nat) :
    (c.get key now).1 = (l.serve (.get key now)).1 ∧
      (c.get key now).2.Lists (l.serve (.get key now)).2 := by
  rw [LocationCache.get, RecencyList.serve, lists.find?_eq]
  rcases known : l.listed.lookup key with _ | location
  · exact ⟨rfl, lists⟩
  by_cases young : now - location.time ≤ l.ttlMs
  · have live : c.expired location now = false := by
      rw [expired, lists.ttlMs]
      exact decide_eq_false (Nat.not_lt.mpr young)
    simp only [live, if_pos young]
    have member := (lookup_eq_some_iff_mem lists.distinct).mp known
    refine ⟨rfl, lists.toMirrors.touch member, ?_⟩
    rw [(atBack_perm lists.distinct member).length_eq]
    exact lists.bounded
  · have old : c.expired location now = true := by
      rw [expired, lists.ttlMs]
      exact decide_eq_true (Nat.lt_of_not_le young)
    simp only [old, if_neg young]
    exact ⟨rfl, lists.remove key⟩

/-- A request is answered from the cache as from the list. -/
theorem serve (lists : c.Lists l) (r : CacheRequest) :
    (c.serve r).1 = (l.serve r).1 ∧ (c.serve r).2.Lists (l.serve r).2 := by
  cases r with
  | get key now => exact lists.get key now
  | insert key x y now => exact ⟨rfl, lists.insert key x y now⟩
  | remove key => exact ⟨lists.find?_eq key, lists.remove key⟩
  | clear => exact ⟨rfl, ⟨rfl, .refl _, List.nodup_nil, lists.capacity, lists.ttlMs⟩, Nat.zero_le _⟩

end Lists

end LocationCache

/-! ### What was put in last -/

namespace RecencyList

variable {l : RecencyList} {past : List CacheRequest}

theorem bound_serve (l : RecencyList) (r : CacheRequest) : (l.serve r).2.bound = l.bound := by
  cases r with
  | get key now =>
    rw [serve]
    split
    · rfl
    · split <;> rfl
  | insert key x y now =>
    rw [serve, trim]
    split <;> rfl
  | remove | clear => rfl

theorem bound_serveAll (l : RecencyList) (requests : List CacheRequest) :
    (serveAll serve l requests).2.bound = l.bound := by
  induction requests generalizing l with
  | nil => rfl
  | cons r rest ih => exact (ih (l.serve r).2).trans (bound_serve l r)

theorem lastInsert_concat (key : UInt64) (past : List CacheRequest) (r : CacheRequest) :
    CacheRequest.lastInsert key (past ++ [r]) =
      match r with
      | .insert k x y now =>
        if k = key then some { x, y, time := now } else CacheRequest.lastInsert key past
      | _ => CacheRequest.lastInsert key past := by
  rw [CacheRequest.lastInsert, List.filterMap_append]
  cases r with
  | insert k x y now =>
    by_cases same : k = key
    · simp [same]
    · simp [same, CacheRequest.lastInsert]
  | get | remove | clear => simp [CacheRequest.lastInsert]

theorem mem_of_mem_trim {e : UInt64 × CachedLocation} (member : e ∈ l.trim.listed) :
    e ∈ l.listed := by
  rw [trim] at member
  split at member
  · exact member
  · exact List.mem_of_mem_tail member

/-- Looking a location up puts nothing in. -/
theorem mem_of_mem_get {key : UInt64} {now : Nat} {e : UInt64 × CachedLocation}
    (member : e ∈ (l.serve (.get key now)).2.listed) : e ∈ l.listed := by
  rw [serve] at member
  split at member
  next => exact member
  next location known =>
    split at member
    next =>
      rcases List.mem_append.mp member with other | used
      · exact (List.mem_filter.mp other).1
      · obtain ⟨before, after, split, _⟩ := List.lookup_eq_some_iff.mp known
        rw [List.mem_singleton.mp used, split]
        simp
    next => exact (List.mem_filter.mp member).1

theorem Recalls.serve (recalls : l.Recalls past) (r : CacheRequest) :
    (l.serve r).2.Recalls (past ++ [r]) := by
  intro key location member
  rw [lastInsert_concat]
  cases r with
  | get k now => exact recalls key location (mem_of_mem_get member)
  | insert k x y now =>
    rcases List.mem_append.mp (mem_of_mem_trim member) with other | stored
    · obtain ⟨before, apart⟩ := List.mem_filter.mp other
      have apart : key ≠ k := by simpa using apart
      simp only [if_neg apart.symm]
      exact recalls key location before
    · cases List.mem_singleton.mp stored
      exact if_pos rfl
  | remove k => exact recalls key location (List.mem_filter.mp member).1
  | clear => cases member

end RecencyList

namespace LocationCache

/-- Any number of requests are answered as from the list. -/
theorem Lists.serveAll {c : LocationCache} {l : RecencyList} {past : List CacheRequest}
    (lists : c.Lists l) (recalls : l.Recalls past) (requests : List CacheRequest) :
    (Screenplay.serveAll LocationCache.serve c requests).1 =
        (Screenplay.serveAll RecencyList.serve l requests).1 ∧
      (Screenplay.serveAll LocationCache.serve c requests).2.Lists
        (Screenplay.serveAll RecencyList.serve l requests).2 ∧
      (Screenplay.serveAll RecencyList.serve l requests).2.Recalls (past ++ requests) := by
  induction requests generalizing c l past with
  | nil => exact ⟨rfl, lists, (List.append_nil past).symm ▸ recalls⟩
  | cons r rest ih =>
    obtain ⟨answer, lists'⟩ := lists.serve r
    obtain ⟨answers, lists'', recalls''⟩ := ih lists' (recalls.serve r)
    rw [List.append_assoc, List.singleton_append] at recalls''
    exact ⟨by simp only [Screenplay.serveAll, answer, answers], lists'', recalls''⟩

theorem lists_empty (capacity ttlMs : Nat) :
    (empty capacity ttlMs).Lists { bound := max capacity 1, ttlMs } where
  order := rfl
  entries := .refl _
  distinct := List.nodup_nil
  capacity := rfl
  ttlMs := rfl
  bounded := Nat.zero_le _

/-- A cache answers any requests at any times as the list of locations by use does, in which each
location is the one that was put in last under its key. The queue holds the keys of the map and
nothing else, each once, and no more than there is room for. -/
theorem serveAll_eq_recency (capacity ttlMs : Nat) (requests : List CacheRequest) :
    let cached := Screenplay.serveAll LocationCache.serve (.empty capacity ttlMs) requests
    let listed :=
      Screenplay.serveAll RecencyList.serve { bound := max capacity 1, ttlMs } requests
    cached.1 = listed.1 ∧ cached.2.Lists listed.2 ∧ listed.2.Recalls requests ∧
      cached.2.order.Nodup ∧ cached.2.order.Perm (cached.2.entries.map Prod.fst) ∧
      cached.2.order.length ≤ max capacity 1 := by
  intro cached listed
  have nothing : RecencyList.Recalls { bound := max capacity 1, ttlMs } [] := by
    intro key location member
    cases member
  obtain ⟨answers, lists, recalls⟩ := (lists_empty capacity ttlMs).serveAll nothing requests
  have bound : listed.2.bound = max capacity 1 := RecencyList.bound_serveAll _ requests
  refine ⟨answers, lists, recalls, ?_, ?_, ?_⟩
  · rw [lists.order]
    exact lists.distinct
  · rw [lists.order]
    exact (lists.entries.map Prod.fst).symm
  · rw [lists.order, List.length_map]
    calc listed.2.listed.length ≤ listed.2.bound := lists.bounded
      _ = max capacity 1 := bound

end LocationCache

end Screenplay
