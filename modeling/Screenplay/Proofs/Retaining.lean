import Screenplay.Proofs.Recency
import Screenplay.Proofs.Remembering

/-!
What a call of the matcher leaves in its memory. The place at which the template was found becomes the
one that was used last, under the key of the template. A place that does not do any more is forgotten.
What is remembered of other templates stays as it was, but the place that was used longest ago is lost
if there is no room for a new one (`Quest.finding_leaves`).
-/
namespace Screenplay

/-- A memory as a matcher comes by it: an empty one, then asked for anything and handed to any
searches. -/
inductive LocationCache.Arises : LocationCache → Prop where
  | empty (capacity ttlMs : Nat) : Arises (.empty capacity ttlMs)
  | served {c} (r : CacheRequest) (before : Arises c) : Arises (c.serve r).2
  | searched {c} (q : Quest) (before : Arises c) : Arises (q.finding c).cache

/-! ### What happens to the list -/

namespace RecencyList

variable {l : RecencyList} {key : UInt64} {location : CachedLocation}

theorem lookup_none {entries : List (UInt64 × CachedLocation)} :
    entries.lookup key = none ↔ ∀ e ∈ entries, e.1 ≠ key := by
  rw [List.lookup_eq_none_iff]
  constructor
  · rintro unknown e member rfl
    simpa using unknown e member
  · intro unknown e member
    simpa using (unknown e member).symm

/-- Without a key that is not listed a list is the same. -/
theorem without_of_unknown (unknown : l.listed.lookup key = none) : l.without key = l := by
  have others : (l.listed.filter fun e => e.1 != key) = l.listed := by
    rw [List.filter_eq_self]
    intro e member
    simpa using lookup_none.mp unknown e member
  rw [without, others]

theorem without_atBack (l : RecencyList) (key : UInt64) (location : CachedLocation) :
    (l.atBack key location).without key = l.without key := by
  simp [atBack, without, List.filter_append]

theorem atBack_without (l : RecencyList) (key : UInt64) (location : CachedLocation) :
    (l.without key).atBack key location = l.atBack key location := by
  simp [atBack, without]

theorem lookup_without (l : RecencyList) (key : UInt64) :
    (l.without key).listed.lookup key = none := by
  rw [lookup_none]
  intro e member
  simpa using (List.mem_filter.mp member).2

/-- A key that is looked up is used, or it is not there and then not listed any more. -/
theorem serve_get (l : RecencyList) (key : UInt64) (now : Nat) :
    l.serve (.get key now) = (none, l.without key) ∨
      ∃ location, l.listed.lookup key = some location ∧
        l.serve (.get key now) = (some location, l.atBack key location) := by
  rcases known : l.listed.lookup key with _ | location
  · left
    simp only [serve, known, without_of_unknown known]
  by_cases young : now - location.time ≤ l.ttlMs
  · right
    exact ⟨location, rfl, by simp only [serve, known, if_pos young]⟩
  · left
    simp only [serve, known, if_neg young]

/-- The list has no room for a key that is not listed. -/
def Full (l : RecencyList) (key : UInt64) : Prop :=
  l.listed.lookup key = none ∧ l.listed.length = l.bound

instance (l : RecencyList) (key : UInt64) : Decidable (l.Full key) :=
  inferInstanceAs (Decidable (_ ∧ _))

/-- The entries of other keys that stay when a location is stored. -/
def keeping (l : RecencyList) (key : UInt64) : List (UInt64 × CachedLocation) :=
  if l.Full key then l.listed.tail else (l.without key).listed

/-- A location is stored behind the entries of other keys, of which the first is lost if there is no
room. -/
theorem listed_trim_atBack (bounded : l.listed.length ≤ l.bound) (room : 0 < l.bound) (key : UInt64)
    (location : CachedLocation) :
    (l.atBack key location).trim.listed = l.keeping key ++ [(key, location)] := by
  have length : (l.atBack key location).listed.length = (l.without key).listed.length + 1 := by
    simp [atBack]
  have bound : (l.atBack key location).bound = l.bound := rfl
  by_cases full : l.Full key
  · obtain ⟨unknown, full⟩ := id full
    rw [without_of_unknown unknown] at length
    have past : ¬ (l.atBack key location).listed.length ≤ l.bound := by omega
    have some : l.listed ≠ [] := by
      rintro none
      rw [none, List.length_nil] at full
      omega
    rw [trim, bound, if_neg past, keeping, if_pos ⟨unknown, full⟩]
    change (l.atBack key location).listed.tail = _
    rw [atBack, without_of_unknown unknown, List.tail_append_of_ne_nil some]
  · have within : (l.atBack key location).listed.length ≤ l.bound := by
      rw [length]
      rcases known : l.listed.lookup key with _ | stored
      · rw [without_of_unknown known]
        have free : l.listed.length ≠ l.bound := fun same => full ⟨known, same⟩
        omega
      · obtain ⟨before, after, split, _⟩ := List.lookup_eq_some_iff.mp known
        have fewer : (l.without key).listed.length < l.listed.length := by
          rw [without, List.length_filter_lt_length_iff_exists]
          exact ⟨(key, stored), by simp [split], by simp⟩
        omega
    rw [trim, bound, if_pos within, keeping, if_neg full]
    rfl

theorem keeping_other {e : UInt64 × CachedLocation} (member : e ∈ l.keeping key) :
    e.1 ≠ key ∧ e ∈ l.listed := by
  rw [keeping] at member
  split at member
  next full =>
    have listed := List.mem_of_mem_tail member
    exact ⟨lookup_none.mp full.1 e listed, listed⟩
  next =>
    obtain ⟨listed, other⟩ := List.mem_filter.mp member
    exact ⟨by simpa using other, listed⟩

/-- A key that is listed comes to the back without another one being lost. -/
theorem trim_atBack_of_known {stored : CachedLocation} (bounded : l.listed.length ≤ l.bound)
    (room : 0 < l.bound) (known : l.listed.lookup key = some stored) :
    (l.atBack key location).trim = l.atBack key location := by
  have unfull : ¬ l.Full key := by
    rintro ⟨unknown, _⟩
    rw [known] at unknown
    cases unknown
  have listed := listed_trim_atBack bounded room key location
  rw [keeping, if_neg unfull] at listed
  rw [trim] at listed ⊢
  split
  next => rfl
  next past =>
    rw [if_neg past] at listed
    exact congrArg (fun entries => { l with listed := entries }) listed

end RecencyList

namespace Quest

variable {q : Quest} {c : LocationCache} {l : RecencyList}

/-- A call asks the memory if it is to use it and the template fits. -/
def Asks (q : Quest) : Prop := q.template.Fits q.source ∧ q.options.useCache = true

/-- What a call does to the list of remembered places. -/
inductive Changes (q : Quest) (l : RecencyList) (r : MatchResult) : RecencyList → Prop where
  | found {time : Nat} (found : r.found = true) :
    Changes q l r (l.atBack q.key { x := r.x, y := r.y, time }).trim
  | forgotten (missed : r.found = false) (asked : q.Asks) : Changes q l r (l.without q.key)
  | unasked (missed : r.found = false) (unasked : ¬ q.Asks) : Changes q l r l

/-- A remembered place that does is used. -/
theorem reopened_hit_lists {during : LocationCache} {hit : SearchState Float} (lists : c.Lists l)
    (opened : q.reopened c = (during, .inl hit)) :
    ∃ entry, l.listed.lookup q.key = some entry ∧ during.Lists (l.atBack q.key entry) ∧
      q.options.threshold ≤ q.score ⟨entry.x, entry.y⟩ ∧
      hit = SearchState.offer {} ⟨⟨entry.x, entry.y⟩, q.score ⟨entry.x, entry.y⟩⟩ := by
  obtain ⟨_, entry, got, enough, same⟩ := reopened_hit opened
  obtain ⟨answer, after⟩ := lists.get q.key q.clock.now
  rw [got] at answer after
  rcases l.serve_get q.key q.clock.now with unknown | ⟨location, known, served⟩
  · rw [unknown] at answer
    cases answer
  · rw [served] at answer after
    cases answer
    exact ⟨entry, known, after, enough, same⟩

/-- Before a search that was to use the memory the place under its key is forgotten. -/
theorem reopened_start_lists {during : LocationCache} {start : SearchState Float}
    (lists : c.Lists l) (opened : q.reopened c = (during, .inr start)) :
    during.Lists (if q.options.useCache = true then l.without q.key else l) := by
  rw [reopened] at opened
  split at opened
  next useCache =>
    rw [if_pos useCache]
    obtain ⟨answer, after⟩ := lists.get q.key q.clock.now
    rcases got : c.get q.key q.clock.now with ⟨entry, touched⟩
    rw [LocationCache.revisit, got] at opened
    rw [got] at answer after
    rcases l.serve_get q.key q.clock.now with unknown | ⟨location, known, served⟩
    · rw [unknown] at answer after
      cases answer
      cases opened
      exact after
    · rw [served] at answer after
      cases answer
      dsimp only at opened
      split at opened
      · cases opened
      · cases opened
        have removed := after.remove q.key
        rwa [RecencyList.without_atBack] at removed
  next useCache =>
    rw [if_neg useCache]
    cases opened
    exact lists

/-- A call leaves the memory a list, changed in one of three ways. -/
theorem finding_changes (q : Quest) (lists : c.Lists l) (room : 0 < l.bound) :
    ∃ l', (q.finding c).cache.Lists l' ∧ q.Changes l (q.finding c).result l' := by
  have comes := finding_comes q c
  generalize q.finding c = finding at comes
  cases comes with
  | tooLarge large => exact ⟨l, lists, .unasked rfl fun asks => large asks.1⟩
  | revisited fits opened =>
    obtain ⟨entry, known, after, enough, rfl⟩ := reopened_hit_lists lists opened
    refine ⟨_, after, ?_⟩
    rw [← RecencyList.trim_atBack_of_known lists.bounded room known]
    refine @Changes.found _ _ _ entry.time ?_
    simpa [MatchResult.ofOutcome, SearchState.finish, SearchState.offer, SearchState.sufficient]
      using enough
  | @searched during start result fits opened same =>
    have before := reopened_start_lists lists opened
    by_cases found : result.found = true
    · refine ⟨_, ?_, @Changes.found _ _ _ q.clock.ended found⟩
      have inserted := before.insert q.key result.x result.y q.clock.ended
      have alike : ∀ location, (if q.options.useCache = true then l.without q.key else l).atBack q.key
          location = l.atBack q.key location := by
        intro location
        split
        · exact l.atBack_without q.key location
        · rfl
      rw [alike] at inserted
      simpa only [found, if_true] using inserted
    · have missed : result.found = false := by simpa using found
      by_cases useCache : q.options.useCache = true
      · refine ⟨l.without q.key, ?_, .forgotten missed ⟨fits, useCache⟩⟩
        simpa [missed, useCache] using before
      · refine ⟨l, ?_, .unasked missed fun asks => useCache asks.2⟩
        simpa [missed, useCache] using before

/-- The limits of the memory stay what they are. -/
theorem Changes.limits {r : MatchResult} {l' : RecencyList} (changes : q.Changes l r l') :
    l'.bound = l.bound ∧ l'.ttlMs = l.ttlMs := by
  cases changes with
  | found =>
    rw [RecencyList.trim]
    split <;> exact ⟨rfl, rfl⟩
  | forgotten | unasked => exact ⟨rfl, rfl⟩

end Quest

namespace LocationCache

variable {c : LocationCache} {l : RecencyList}

/-- A memory that a matcher has is a list with room for a place. -/
theorem Arises.lists (arises : c.Arises) : ∃ l, c.Lists l ∧ 0 < l.bound := by
  induction arises with
  | empty capacity ttlMs =>
    exact ⟨_, lists_empty capacity ttlMs, Nat.lt_of_lt_of_le Nat.one_pos (Nat.le_max_right _ _)⟩
  | served r _ ih =>
    obtain ⟨l, lists, room⟩ := ih
    exact ⟨_, (lists.serve r).2, by rw [l.bound_serve r]; exact room⟩
  | searched q _ ih =>
    obtain ⟨l, lists, room⟩ := ih
    obtain ⟨l', lists', changes⟩ := q.finding_changes lists room
    exact ⟨l', lists', by rw [changes.limits.1]; exact room⟩

theorem Lists.mem_order_iff (lists : c.Lists l) (key : UInt64) :
    key ∈ c.order ↔ (c.find? key).isSome = true := by
  rw [lists.order, lists.find?_eq, ← Option.ne_none_iff_isSome, Ne, RecencyList.lookup_none]
  simp

/-- Two memories agree on a key that one list has only if the other has it, too. -/
theorem Lists.find?_eq_of_mem {c' : LocationCache} {l' : RecencyList} {key : UInt64}
    (lists : c.Lists l) (lists' : c'.Lists l') (member : key ∈ c'.order)
    (kept : ∀ e ∈ l'.listed, e.1 = key → e ∈ l.listed) : c'.find? key = c.find? key := by
  rw [lists'.order] at member
  obtain ⟨⟨_, location⟩, listed, rfl⟩ := List.mem_map.mp member
  have before := kept _ listed rfl
  rw [lists.find?_eq, lists'.find?_eq, (lookup_eq_some_iff_mem lists.distinct).mpr before,
    (lookup_eq_some_iff_mem lists'.distinct).mpr listed]

end LocationCache

namespace Quest

variable {q : Quest} {c : LocationCache} {l l' : RecencyList} {r : MatchResult}

/-- The template is new to a memory that has no room for it. -/
def Evicts (q : Quest) (c : LocationCache) (r : MatchResult) : Prop :=
  r.found = true ∧ c.find? q.key = none ∧ c.size = c.capacity

instance (q : Quest) (c : LocationCache) (r : MatchResult) : Decidable (q.Evicts c r) :=
  inferInstanceAs (Decidable (_ ∧ _ ∧ _))

/-- What a call that comes to a result leaves of a memory. -/
structure Leaves (q : Quest) (c : LocationCache) (r : MatchResult) (after : LocationCache) :
    Prop where
  tooLarge : ¬ q.template.Fits q.source → after = c
  unasked : q.options.useCache = false → r.found = false → after = c
  present : q.template.Fits q.source → q.options.useCache = true →
    ((after.find? q.key).isSome = true ↔ r.found = true)
  /-- The place that is reported is the one that was used last. -/
  stored : r.found = true → after.order.getLast? = some q.key ∧
    ∃ time, after.find? q.key = some { x := r.x, y := r.y, time }
  /-- Other keys keep their order, none is new, and only the one that was used longest ago is lost. -/
  others : (after.order.filter fun k => k != q.key) =
    if q.Evicts c r then c.order.tail else c.order.filter fun k => k != q.key
  /-- Other keys that stay keep their places and times. -/
  kept : ∀ k ∈ after.order, k ≠ q.key → after.find? k = c.find? k
  /-- What has a place in the order is remembered, and nothing else. -/
  listed : ∀ k, k ∈ after.order ↔ (after.find? k).isSome = true

theorem Changes.stored (changes : q.Changes l r l') (bounded : l.listed.length ≤ l.bound)
    (room : 0 < l.bound) (found : r.found = true) :
    ∃ time, l'.listed = l.keeping q.key ++ [(q.key, { x := r.x, y := r.y, time })] := by
  cases changes with
  | @found time => exact ⟨time, RecencyList.listed_trim_atBack bounded room q.key _⟩
  | forgotten missed | unasked missed =>
    rw [found] at missed
    cases missed

theorem evicts_iff (lists : c.Lists l) : q.Evicts c r ↔ r.found = true ∧ l.Full q.key := by
  rw [Evicts, RecencyList.Full, lists.find?_eq, lists.size_eq, lists.capacity]

theorem Changes.others (changes : q.Changes l r l') (lists : c.Lists l) {after : LocationCache}
    (lists' : after.Lists l') (room : 0 < l.bound) :
    (after.order.filter fun k => k != q.key) =
      if q.Evicts c r then c.order.tail else c.order.filter fun k => k != q.key := by
  by_cases found : r.found = true
  · obtain ⟨time, listed⟩ := changes.stored lists.bounded room found
    have kept : (l'.listed.map Prod.fst).filter (fun k => k != q.key) =
        (l.keeping q.key).map Prod.fst := by
      have others : ((l.keeping q.key).map Prod.fst).filter (fun k => k != q.key) =
          (l.keeping q.key).map Prod.fst := by
        rw [List.filter_eq_self]
        intro k member
        obtain ⟨e, here, rfl⟩ := List.mem_map.mp member
        simpa using (RecencyList.keeping_other here).1
      rw [listed, List.map_append, List.filter_append, others]
      simp
    rw [lists'.order, kept, lists.order, RecencyList.keeping]
    by_cases full : l.Full q.key
    · rw [if_pos full, if_pos ((evicts_iff lists).mpr ⟨found, full⟩), List.map_tail]
    · have spared : ¬ q.Evicts c r := fun evicts => full ((evicts_iff lists).mp evicts).2
      rw [if_neg full, if_neg spared, RecencyList.without, keys_filter]
  · have spared : ¬ q.Evicts c r := fun evicts => found evicts.1
    rw [if_neg spared, lists'.order, lists.order]
    cases changes with
    | found hit => exact absurd hit found
    | forgotten =>
      rw [RecencyList.without, keys_filter, List.filter_filter]
      simp
    | unasked => rfl

theorem Changes.kept (changes : q.Changes l r l') (bounded : l.listed.length ≤ l.bound)
    (room : 0 < l.bound) {e : UInt64 × CachedLocation} (member : e ∈ l'.listed)
    (other : e.1 ≠ q.key) : e ∈ l.listed := by
  cases changes with
  | found =>
    rw [RecencyList.listed_trim_atBack bounded room] at member
    rcases List.mem_append.mp member with before | stored
    · exact (RecencyList.keeping_other before).2
    · rw [List.mem_singleton] at stored
      exact absurd (congrArg Prod.fst stored) other
  | forgotten => exact (List.mem_filter.mp member).1
  | unasked => exact member

theorem Changes.present (changes : q.Changes l r l') (bounded : l.listed.length ≤ l.bound)
    (room : 0 < l.bound) (asks : q.Asks) :
    (l'.listed.lookup q.key).isSome = true ↔ r.found = true := by
  rw [← Option.ne_none_iff_isSome, Ne, RecencyList.lookup_none]
  cases changes with
  | found found =>
    rw [RecencyList.listed_trim_atBack bounded room]
    simp [found]
  | forgotten missed =>
    have unknown := RecencyList.lookup_none.mp (l.lookup_without q.key)
    simp only [missed, Bool.false_eq_true, iff_false, not_not]
    exact unknown
  | unasked _ unasked => exact absurd asks unasked

/-- A memory that is not asked learns only of what is found. -/
theorem cache_unused (unused : q.options.useCache = false)
    (missed : (q.finding c).result.found = false) : (q.finding c).cache = c := by
  have opened : q.reopened c = (c, .inr {}) := by
    rw [reopened, unused]
    rfl
  rw [finding_eq, opened] at missed ⊢
  split at missed
  next large => rw [if_pos large]
  next fits =>
    rw [if_neg fits]
    dsimp only at missed ⊢
    rw [missed]
    rfl

/-- A call changes a memory just as it should. A template that is too large, or one that was searched
for in vain without asking the memory, leaves it as it was. A memory that is asked knows the template
afterwards exactly if it was found. What was found was used last, and what is known of other templates
stays in its order, but for the place that was used longest ago where a new one has no room. -/
theorem finding_leaves (q : Quest) {c : LocationCache} (arises : c.Arises) :
    q.Leaves c (q.finding c).result (q.finding c).cache := by
  obtain ⟨l, lists, room⟩ := arises.lists
  obtain ⟨l', lists', changes⟩ := q.finding_changes lists room
  constructor
  · intro large
    have outside := mt fits_iff.mpr large
    rw [finding_eq, if_pos (by omega)]
  · intro unused missed
    exact cache_unused unused missed
  · intro fits useCache
    rw [lists'.find?_eq]
    exact changes.present lists.bounded room ⟨fits, useCache⟩
  · intro found
    obtain ⟨time, listed⟩ := changes.stored lists.bounded room found
    refine ⟨?_, time, ?_⟩
    · rw [lists'.order, listed, List.map_append]
      exact List.getLast?_concat
    · rw [lists'.find?_eq, lookup_eq_some_iff_mem lists'.distinct, listed]
      exact List.mem_concat_self
  · exact changes.others lists lists' room
  · intro k member other
    exact lists.find?_eq_of_mem lists' member fun e here same =>
      changes.kept lists.bounded room here (same ▸ other)
  · intro k
    exact lists'.mem_order_iff k

/-- A dot takes the only room there is. -/
theorem finding_leaves_full :
    let c := (LocationCache.empty 1 300000).insert 7 3 4 0
    let q : Quest := ⟨.still 9, ⟨2, 1, .gray, #[10, 200]⟩, ⟨1, 1, .gray, #[200]⟩, {}⟩
    c.Arises ∧ q.Leaves c (q.finding c).result (q.finding c).cache ∧
      q.Evicts c (q.finding c).result ∧ (q.finding c).cache.order = [q.key] := by
  intro c q
  have arises : c.Arises := .served (.insert 7 3 4 0) (.empty 1 300000)
  exact ⟨arises, finding_leaves q arises, by decide +kernel, by decide +kernel⟩

end Quest

end Screenplay
