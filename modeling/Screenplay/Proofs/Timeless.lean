import Screenplay.Proofs.Remembering

/-!
What a memory owes to the clock. The times at which places were put in matter only once they lie
back too far. Until then the matcher comes to what it comes to when no time ever passes
(`Quest.finding_timeless`).
-/
namespace Screenplay

/-- The place without the time at which it was put in. -/
def CachedLocation.timeless (l : CachedLocation) : CachedLocation := { l with time := 0 }

namespace LocationCache

variable {c : LocationCache} {key : UInt64} {now : Nat}

def timeless (c : LocationCache) : LocationCache :=
  { c with entries := c.entries.map fun e => (e.1, e.2.timeless) }

/-- Nothing is too old at this time. -/
def LastsAt (c : LocationCache) (now : Nat) : Prop :=
  ∀ e ∈ c.entries, now - e.2.time ≤ c.ttlMs

theorem timeless_lasts (c : LocationCache) : c.timeless.LastsAt 0 := by
  intro e member
  omega

theorem mem_of_find? {entry : CachedLocation} (known : c.find? key = some entry) :
    (key, entry) ∈ c.entries := by
  obtain ⟨before, after, split, _⟩ := List.lookup_eq_some_iff.mp known
  rw [split]
  simp

theorem LastsAt.not_expired {entry : CachedLocation} (lasts : c.LastsAt now)
    (known : c.find? key = some entry) : c.expired entry now = false := by
  have recent : now - entry.time ≤ c.ttlMs := lasts _ (mem_of_find? known)
  rw [expired, decide_eq_false_iff_not]
  omega

/-! ### The operations without times -/

theorem find?_timeless (c : LocationCache) (key : UInt64) :
    c.timeless.find? key = (c.find? key).map CachedLocation.timeless := by
  rw [find?, find?, timeless]
  induction c.entries with
  | nil => rfl
  | cons e rest ih =>
    rw [List.map_cons, List.lookup_cons, List.lookup_cons]
    by_cases same : key = e.1
    · simp [same]
    · have other : (key == e.1) = false := beq_false_of_ne same
      simp only [other]
      exact ih

theorem filter_timeless (entries : List (UInt64 × CachedLocation)) (key : UInt64) :
    (entries.map fun e => (e.1, e.2.timeless)).filter (fun e => e.1 != key) =
      (entries.filter fun e => e.1 != key).map fun e => (e.1, e.2.timeless) :=
  List.filter_map

theorem remove_timeless (c : LocationCache) (key : UInt64) :
    c.timeless.remove key = (c.remove key).timeless := by
  rw [remove, remove, timeless, timeless, filter_timeless]

theorem evict_timeless (c : LocationCache) (fuel : Nat) :
    evict fuel c.timeless = (evict fuel c).timeless := by
  induction fuel generalizing c with
  | zero => rfl
  | succ fuel ih =>
    have size : c.timeless.size = c.size := List.length_map _
    rw [evict, evict, size]
    by_cases within : c.size ≤ c.capacity
    · rw [if_pos within]
      exact if_pos within
    have within' : ¬ c.size ≤ c.timeless.capacity := within
    rw [if_neg within, if_neg within']
    obtain ⟨entries, order, capacity, ttlMs⟩ := c
    cases order with
    | nil => rfl
    | cons oldest rest =>
      simp only [timeless, filter_timeless]
      exact ih ⟨entries.filter fun e => e.1 != oldest, rest, capacity, ttlMs⟩

theorem insert_timeless (c : LocationCache) (key : UInt64) (x y : Int) (now : Nat) :
    c.timeless.insert key x y 0 = (c.insert key x y now).timeless := by
  rw [insert, insert, ← evict_timeless]
  simp only [timeless, filter_timeless, touch, List.map_cons]
  rfl

theorem get_timeless (lasts : c.LastsAt now) (key : UInt64) :
    c.timeless.get key 0 = ((c.get key now).1.map CachedLocation.timeless, (c.get key now).2.timeless) := by
  rw [get, get]
  rcases known : c.find? key with _ | entry
  · rw [find?_timeless, known]
    rfl
  · have known' : c.timeless.find? key = some entry.timeless := by rw [find?_timeless, known]; rfl
    have young := lasts.not_expired known
    have young' := c.timeless_lasts.not_expired known'
    simp only [known', young, young', Bool.false_eq_true, if_false]
    rfl

theorem revisit_timeless (lasts : c.LastsAt now) (key : UInt64) (task : SearchTask Float) :
    c.timeless.revisit key task 0 =
      ((c.revisit key task now).1.timeless, (c.revisit key task now).2) := by
  rw [revisit, revisit, get_timeless lasts]
  rcases c.get key now with ⟨_ | entry, touched⟩
  · rfl
  · simp only [Option.map_some, CachedLocation.timeless]
    split
    next enough => rfl
    next low => rw [remove_timeless]

end LocationCache

/-- What a call of the matcher comes to, without the times in the memory. -/
def Finding.timeless (f : Finding) : Finding :=
  { f with during := f.during.timeless, cache := f.cache.timeless }

namespace Quest

variable {q : Quest} {c : LocationCache}

/-- The same call when no time passes. -/
def timeless (q : Quest) : Quest := { q with clock := .still 0 }

theorem timeless_untimed (q : Quest) : q.timeless.Untimed := by
  by_cases spent : q.options.timeoutMs = 0
  · exact .inl spent
  · exact .inr fun _ => Nat.pos_of_ne_zero fun zero => spent (UInt64.toNat_inj.mp zero)

theorem task_timeless (untimed : q.Untimed) : q.timeless.task = q.task := by
  have same : q.timeless.task.expired = q.task.expired := untimed.expired q.timeless_untimed rfl
  change ({ q.task with expired := q.timeless.task.expired } : SearchTask Float) = q.task
  rw [same]

theorem reopened_timeless (untimed : q.Untimed)
    (lasts : c.LastsAt q.clock.now) :
    q.timeless.reopened c.timeless = ((q.reopened c).1.timeless, (q.reopened c).2) := by
  have begun := LocationCache.revisit_timeless lasts q.key q.task
  rw [← task_timeless untimed] at begun
  rw [reopened, reopened]
  change (if q.options.useCache then c.timeless.revisit q.key q.timeless.task 0 else _) = _
  rw [begun, task_timeless untimed]
  by_cases useCache : q.options.useCache = true
  · rw [if_pos useCache, if_pos useCache]
  · rw [if_neg useCache, if_neg useCache]

/-- A call of the matcher that the clock does not end comes to the same at any time at which nothing is
too old. -/
theorem finding_timeless (untimed : q.Untimed) (lasts : c.LastsAt q.clock.now) :
    q.timeless.finding c.timeless = (q.finding c).timeless := by
  have bounds : q.timeless.bounds = q.bounds := rfl
  have options : q.timeless.options = q.options := rfl
  have template : q.timeless.template = q.template := rfl
  have key : q.timeless.key = q.key := rfl
  have hint : q.timeless.hint = q.hint := rfl
  have ended : q.timeless.clock.ended = 0 := rfl
  rw [finding_eq, finding_eq, reopened_timeless untimed lasts, bounds, options, template, key, hint,
    ended, task_timeless untimed]
  by_cases large : q.bounds.maxX < 0 ∨ q.bounds.maxY < 0
  · rw [if_pos large, if_pos large]
    rfl
  rw [if_neg large, if_neg large]
  rcases q.reopened c with ⟨during, hit | start⟩
  · rfl
  · simp only [Finding.timeless, LocationCache.insert_timeless _ _ _ _ q.clock.ended]
    split <;> rfl

end Quest

/-! ### What is remembered afterwards -/

/-- The memory holds what it held or what was put in at this time. -/
structure LocationCache.Renewed (now : Nat) (c c' : LocationCache) : Prop where
  entries : ∀ e ∈ c'.entries, e ∈ c.entries ∨ e.2.time = now
  ttlMs : c'.ttlMs = c.ttlMs

namespace LocationCache.Renewed

variable {c c' c'' : LocationCache} {now : Nat}

theorem refl (now : Nat) (c : LocationCache) : Renewed now c c := ⟨fun _ => .inl, rfl⟩

theorem trans (first : Renewed now c c') (later : Renewed now c' c'') : Renewed now c c'' := by
  refine ⟨fun e member => ?_, later.ttlMs.trans first.ttlMs⟩
  rcases later.entries e member with held | new
  · exact first.entries e held
  · exact .inr new

theorem remove (now : Nat) (c : LocationCache) (key : UInt64) : Renewed now c (c.remove key) :=
  ⟨fun _ member => .inl (List.mem_filter.mp member).1, rfl⟩

theorem get (now : Nat) (c : LocationCache) (key : UInt64) (time : Nat) :
    Renewed now c (c.get key time).2 := by
  rw [LocationCache.get]
  split
  · exact refl now c
  split
  · exact remove now c key
  · exact ⟨fun _ => .inl, rfl⟩

theorem evict (now : Nat) (c : LocationCache) (fuel : Nat) : Renewed now c (evict fuel c) := by
  induction fuel generalizing c with
  | zero => exact refl now c
  | succ fuel ih =>
    rw [LocationCache.evict]
    split
    · exact refl now c
    split
    · exact refl now c
    next oldest rest _ =>
      have dropped : Renewed now c
          { c with order := rest, entries := c.entries.filter fun e => e.1 != oldest } :=
        ⟨fun _ member => .inl (List.mem_filter.mp member).1, rfl⟩
      exact dropped.trans (ih _)

theorem insert (c : LocationCache) (key : UInt64) (x y : Int) (now : Nat) :
    Renewed now c (c.insert key x y now) := by
  have stored : Renewed now c { c with
      entries := (key, ⟨x, y, now⟩) :: c.entries.filter fun e => e.1 != key } := by
    refine ⟨fun e member => ?_, rfl⟩
    rcases List.mem_cons.mp member with rfl | held
    · exact .inr rfl
    · exact .inl (List.mem_filter.mp held).1
  have touched {c' : LocationCache} (stored : Renewed now c c') : Renewed now c (c'.touch key) :=
    ⟨stored.entries, stored.ttlMs⟩
  exact (touched stored).trans (evict now _ _)

theorem reopened (now : Nat) (q : Quest) (c : LocationCache) : Renewed now c (q.reopened c).1 := by
  rw [Quest.reopened]
  split
  · rw [LocationCache.revisit]
    have got := get now c q.key q.clock.now
    rcases looked : c.get q.key q.clock.now with ⟨_ | entry, touched⟩ <;> rw [looked] at got
    · exact got
    · dsimp only
      split
      · exact got
      · exact got.trans (remove now touched q.key)
  · exact refl now c

theorem finding (q : Quest) (c : LocationCache) : Renewed q.clock.ended c (q.finding c).cache := by
  have comes := q.finding_comes c
  generalize q.finding c = finding at comes
  cases comes with
  | tooLarge => exact refl _ c
  | @revisited during hit fits opened =>
    have begun := reopened q.clock.ended q c
    rwa [opened] at begun
  | @searched during start result fits opened same =>
    have begun := reopened q.clock.ended q c
    rw [opened] at begun
    by_cases found : result.found = true
    · rw [if_pos found]
      exact begun.trans (insert during _ _ _ _)
    · rw [if_neg found]
      exact begun

end LocationCache.Renewed

/-- Nothing that is held, or put in by a search from this one on, lies back too far when a later search
asks for it; each search has its own clock. -/
structure LocationCache.Outlasts (c : LocationCache) (clock : Nat → Stopwatch) (search : Nat) : Prop where
  held : ∀ later, search ≤ later → c.LastsAt (clock later).now
  new : ∀ earlier later, search ≤ earlier → earlier < later →
    (clock later).now - (clock earlier).ended ≤ c.ttlMs

/-- Nothing is held at first, so only what the searches put in has to last. -/
theorem LocationCache.outlasts_empty {capacity ttlMs : Nat} {clock : Nat → Stopwatch}
    (brief : ∀ earlier later, earlier < later → (clock later).now - (clock earlier).ended ≤ ttlMs) :
    (empty capacity ttlMs).Outlasts clock 0 where
  held := fun _ _ _ member => absurd member List.not_mem_nil
  new := fun earlier later _ order => brief earlier later order

theorem LocationCache.Outlasts.renewed {c c' : LocationCache} {clock : Nat → Stopwatch} {search : Nat}
    (outlasts : c.Outlasts clock search) (renewed : Renewed (clock search).ended c c') :
    c'.Outlasts clock (search + 1) := by
  constructor
  · intro later after e member
    rw [renewed.ttlMs]
    rcases renewed.entries e member with held | new
    · exact outlasts.held later (by omega) e held
    · rw [new]
      exact outlasts.new search later (by omega) (by omega)
  · intro earlier later after order
    rw [renewed.ttlMs]
    exact outlasts.new earlier later (by omega) order

end Screenplay
