import Missive.Proofs.Plan.Planned

/-!
# Where field numbers lead

The decoder of a class tries cases in a row, each of which stands for the numbers of one slot.

**Patterns are exact.**  Three or more consecutive numbers are tested by their ends only.  Since the
numbers ascend, nothing lies between the ends but the numbers themselves.

**Routes are exact.**  A number leads to the slot of the declared field that has it.  A number of no
declared field leads to the extensions if it lies in a range, and is unknown otherwise.
-/

namespace Missive

open List

/-- What is sorted by different numbers ascends strictly. -/
lemma pairwise_lt_sortBy {α : Type} (number : α → Int) {l : List α} (distinct : (l.map number).Nodup) :
    (sortBy (fun a b => decide (number a ≤ number b)) l).Pairwise fun a b => number a < number b := by
  have sorted := @pairwise_sortBy α (fun a b => decide (number a ≤ number b))
    (fun a b c ab bc => by simp only [decide_eq_true_eq] at ab bc ⊢; omega)
    (fun a b => by simp only [Bool.or_eq_true, decide_eq_true_eq]; omega) l
  have perm := sortBy_perm (fun a b => decide (number a ≤ number b)) l
  have different := pairwise_map.1 ((perm.map number).nodup_iff.2 distinct)
  refine (sorted.and different).imp ?_
  rintro a b ⟨le, ne⟩
  have le : number a ≤ number b := by simpa using le
  omega

end Missive

namespace Missive.Schema.Pattern

open List

variable {first number : Int} {rest : List Int} {p : Pattern}

section

variable (ascending : (first :: rest).Pairwise (· < ·))

include ascending

lemma length_le_last_sub :
    (rest.length : Int) ≤ rest.getLastD first - first := by
  induction rest generalizing first with
  | nil => simp
  | cons next rest ih =>
    have room := ih (pairwise_cons.1 ascending).2
    have step := (pairwise_cons.1 ascending).1 next (.head _)
    simp only [getLastD_cons, length_cons]
    omega

lemma le_last (member : number ∈ first :: rest) : number ≤ rest.getLastD first := by
  induction rest generalizing first with
  | nil => simp_all
  | cons next rest ih =>
    rcases mem_cons.1 member with rfl | member
    · have room := length_le_last_sub ascending
      omega
    · rw [getLastD_cons]
      exact ih (pairwise_cons.1 ascending).2 member

lemma first_le (member : number ∈ first :: rest) : first ≤ number := by
  rcases mem_cons.1 member with rfl | later
  · exact Int.le_refl _
  · exact Int.le_of_lt ((pairwise_cons.1 ascending).1 number later)

/-- Ascending numbers that fill the room between their ends leave nothing out. -/
lemma mem_of_between (full : rest.getLastD first = first + rest.length) (above : first ≤ number)
    (below : number ≤ rest.getLastD first) : number ∈ first :: rest := by
  induction rest generalizing first with
  | nil =>
    have : number = first := Int.le_antisymm below above
    simp [this]
  | cons next rest ih =>
    obtain ⟨before, later⟩ := pairwise_cons.1 ascending
    have step := before next (.head _)
    have room := length_le_last_sub later
    rw [getLastD_cons, length_cons] at full
    rw [getLastD_cons] at below
    rcases Int.lt_or_eq_of_le above with beyond | rfl
    · exact .tail _ (ih later (by omega) (by omega) below)
    · exact .head _

end

/-- A pattern matches its numbers and no others. -/
lemma contains_iff (ascending : p.numbers.Pairwise (· < ·)) (number : Int) :
    p.contains number = true ↔ number ∈ p.numbers := by
  unfold contains
  split
  · rename_i range
    obtain ⟨first, rest, whole⟩ : ∃ first rest, p.numbers = first :: rest := by
      cases numbers : p.numbers with
      | nil => simp [isRange, numbers] at range
      | cons first rest => exact ⟨first, rest, rfl⟩
    simp only [isRange, Pattern.first, last, whole, headD_cons, getLastD_cons,
      length_cons, Bool.and_eq_true, decide_eq_true_eq, beq_iff_eq] at range ascending ⊢
    constructor
    · rintro ⟨above, below⟩
      exact mem_of_between ascending (by omega) above below
    · intro member
      exact ⟨first_le ascending member, le_last ascending member⟩
  · simp

lemma contains_ofNumbers? {numbers : List Int} (distinct : numbers.Nodup) (made : ofNumbers? numbers = some p)
    (number : Int) :
    p.contains number = true ↔ number ∈ numbers := by
  unfold ofNumbers? at made
  split at made
  · cases made
  cases made
  have ascending : (sortBy (fun a b => decide (a ≤ b)) numbers).Pairwise (· < ·) :=
    pairwise_lt_sortBy id (by simpa using distinct)
  rw [contains_iff ascending, mem_sortBy]

end Missive.Schema.Pattern

namespace Missive.Plan

open Schema List

variable {m : Message} {number : Int} {f : Field}

def keyNumbers (m : Message) : SlotKey → List Int
  | .field number => [number]
  | .oneof index => ((m.oneofs.find? (·.index == index)).map (·.numbers)).getD []

lemma dispatchCases_eq (m : Message) :
    dispatchCases m = ((m.sorted.map (slotKey m)).foldl addKey []).filterMap fun key =>
      (Pattern.ofNumbers? (keyNumbers m key)).map fun pattern => (pattern, slotIndex m key) := by
  rw [foldl_map]
  rfl

lemma mem_sorted : f ∈ m.sorted ↔ f ∈ m.fields :=
  mem_sortBy _

lemma mem_numbers {o : Oneof} : number ∈ o.numbers ↔ ∃ f ∈ o.members, f.number = number := by
  unfold Oneof.numbers sortFields
  simp only [mem_map, mem_sortBy]

/-- The numbers of a slot are those of the fields that are kept in it. -/
lemma mem_keyNumbers {g : Field} (declared : g ∈ m.fields) :
    number ∈ keyNumbers m (slotKey m g) ↔ ∃ f ∈ m.fields, f.number = number ∧ slotKey m f = slotKey m g := by
  cases of : m.oneofOf g with
  | none =>
    have key : slotKey m g = .field g.number := slotKey_field.2 ⟨of, rfl⟩
    rw [key, keyNumbers, mem_singleton]
    constructor
    · rintro rfl
      exact ⟨g, declared, rfl, key⟩
    · rintro ⟨f, -, rfl, same⟩
      exact (slotKey_field.1 same).2
  | some o =>
    obtain ⟨member, position⟩ := oneofOf_some of
    have key : slotKey m g = .oneof o.index := (slotKey_oneof of).2 position
    have found : m.oneofs.find? (·.index == o.index) = some o := by
      simpa [Message.oneofOf, position] using of
    rw [key, keyNumbers, found, Option.map_some, Option.getD_some, mem_numbers, (mem_allOneofs (mem_oneofs member).1).2]
    simp only [mem_filter, beq_iff_eq, slotKey_oneof of]
    constructor
    · rintro ⟨f, ⟨inside, same⟩, rfl⟩
      exact ⟨f, inside, rfl, same⟩
    · rintro ⟨f, inside, rfl, same⟩
      exact ⟨f, ⟨inside, same⟩, rfl⟩

/-- The numbers of a oneof ascend. -/
lemma numbers_pairwise (distinct : (m.fields.map (·.number)).Nodup) {o : Oneof} (isOneof : o ∈ m.oneofs) :
    o.numbers.Pairwise (· < ·) := by
  have some : (o.members.map (·.number)).Nodup := by
    rw [(mem_allOneofs (mem_oneofs isOneof).1).2]
    exact distinct.sublist (filter_sublist.map _)
  exact pairwise_map.2 (pairwise_lt_sortBy Field.number some)

lemma nodup_keyNumbers (distinct : (m.fields.map (·.number)).Nodup) (key : SlotKey) : (keyNumbers m key).Nodup := by
  cases key with
  | field => simp [keyNumbers]
  | oneof index =>
    rw [keyNumbers]
    cases found : m.oneofs.find? (·.index == index) with
    | none => simp
    | some => exact (numbers_pairwise distinct (mem_of_find?_eq_some found)).imp Int.ne_of_lt

/-- A case of the dispatcher stands for a slot and matches the numbers of its fields. -/
lemma exists_of_case (resolved : m.Resolved) {case : Pattern × Nat} (member : case ∈ dispatchCases m) :
    ∃ g ∈ m.fields, case.2 = slotIndex m (slotKey m g) ∧ ∀ number, case.1.contains number = true
          ↔ ∃ f ∈ m.fields, f.number = number ∧ slotKey m f = slotKey m g := by
  rw [dispatchCases_eq] at member
  obtain ⟨key, inside, made⟩ := mem_filterMap.1 member
  rw [mem_foldl_addKey] at inside
  obtain ⟨g, declared, rfl⟩ : ∃ g ∈ m.fields, slotKey m g = key := by
    simpa [mem_sorted] using inside
  obtain ⟨pattern, some, rfl⟩ := Option.map_eq_some_iff.1 made
  refine ⟨g, declared, rfl, fun number => ?_⟩
  rw [Pattern.contains_ofNumbers? (nodup_keyNumbers resolved.distinct _) some, mem_keyNumbers declared]

lemma exists_case (resolved : m.Resolved) (declared : f ∈ m.fields) :
    ∃ case ∈ dispatchCases m, case.1.contains f.number = true := by
  have number : f.number ∈ keyNumbers m (slotKey m f) :=
    (mem_keyNumbers declared).2 ⟨f, declared, rfl, rfl⟩
  obtain ⟨pattern, made⟩ : ∃ p, Pattern.ofNumbers? (keyNumbers m (slotKey m f)) = some p := by
    have some := isEmpty_eq_false_iff.2 (ne_nil_of_mem number)
    simp [Pattern.ofNumbers?, some]
  refine ⟨(pattern, slotIndex m (slotKey m f)), ?_, ?_⟩
  · rw [dispatchCases_eq]
    refine mem_filterMap.2 ⟨slotKey m f, ?_, by simp [made]⟩
    exact mem_foldl_addKey.2 (.inr (mem_map_of_mem (mem_sorted.2 declared)))
  · exact (Pattern.contains_ofNumbers? (nodup_keyNumbers resolved.distinct _) made _).2 number

namespace Planned

variable {a : Arena} {c : ClassPlan}

section

variable (planned : Planned a m c)

include planned

/-- A declared number leads to the slot of its field. -/
lemma route_field (resolved : m.Resolved) (declared : f ∈ m.fields) :
    c.route f.number = .slot (slotIndex m (slotKey m f)) := by
  unfold ClassPlan.route
  rw [planned.cases]
  split
  · rename_i case found
    obtain ⟨g, inside, slot, numbers⟩ := exists_of_case resolved (mem_of_find?_eq_some found)
    obtain ⟨f', declared', number, key⟩ := (numbers f.number).1 (by simpa using find?_some found)
    obtain rfl : f' = f := inj_on_of_nodup_map resolved.distinct declared' declared number
    rw [key, ← slot]
  · rename_i found
    obtain ⟨case, member, hit⟩ := exists_case resolved declared
    exact absurd hit (by simpa using find?_eq_none.1 found case member)

/-- A number that is not declared leads to the extensions or nowhere. -/
lemma route_other (resolved : m.Resolved) (other : ∀ f ∈ m.fields, f.number ≠ number) :
    c.route number = if c.ranges.contains number then .extension else .unknown := by
  unfold ClassPlan.route
  rw [planned.cases]
  split
  · rename_i case found
    obtain ⟨g, -, -, numbers⟩ := exists_of_case resolved (mem_of_find?_eq_some found)
    obtain ⟨f, declared, same, -⟩ := (numbers number).1 (by simpa using find?_some found)
    exact absurd same (other f declared)
  · rfl

lemma numbers_eq :
    c.declared.map (·.number) = m.fields.map (·.number) := by
  obtain ⟨oneofs, pairs, fields, declared, presented⟩ := planned.exists_pairs
  rw [← fields, ← declared, map_map, map_map]
  exact map_congr_left fun pair member => (presented pair member).number_eq

lemma declared_ext (resolved : m.Resolved) {d d' : Declared} (declared : d ∈ c.declared)
    (declared' : d' ∈ c.declared) (same : d.number = d'.number) : d = d' := by
  have distinct : (c.declared.map Declared.number).Nodup := planned.numbers_eq ▸ resolved.distinct
  exact inj_on_of_nodup_map distinct declared declared' same

/-- **Routes are exact.**  A number leads where a declared field has it, if one does. -/
lemma route_eq (resolved : m.Resolved) (number : Int) :
    (∃ d ∈ c.declared, d.number = number ∧ c.route number = .slot d.slot) ∨ (∀ d ∈ c.declared, d.number ≠ number)
        ∧ c.route number = if c.ranges.contains number then .extension else .unknown := by
  by_cases some : ∃ f ∈ m.fields, f.number = number
  · obtain ⟨f, inside, rfl⟩ := some
    obtain ⟨oneofs, d, declared, presents⟩ := planned.exists_presented inside
    refine .inl ⟨d, declared, presents.number_eq, ?_⟩
    rw [planned.route_field resolved inside, presents.slot_eq]
  · simp only [not_exists, not_and] at some
    refine .inr ⟨fun d member same => ?_, planned.route_other resolved some⟩
    have : number ∈ m.fields.map (·.number) := by
      rw [← planned.numbers_eq, ← same]
      exact mem_map_of_mem member
    obtain ⟨f, inside, rfl⟩ := mem_map.1 this
    exact some f inside rfl

lemma route_declared (resolved : m.Resolved) {d : Declared} (declared : d ∈ c.declared) :
    c.route d.number = .slot d.slot := by
  rcases planned.route_eq resolved d.number with ⟨d', declared', same, route⟩ | ⟨none, -⟩
  · rw [route, planned.declared_ext resolved declared' declared same]
  · exact absurd rfl (none d declared)

lemma route_ranged (resolved : m.Resolved) (ranged : c.ranges.contains number = true) :
    c.route number = .extension := by
  have other : ∀ f ∈ m.fields, f.number ≠ number := by
    rintro f declared rfl
    rw [planned.ranges, resolved.outside f declared] at ranged
    cases ranged
  rw [planned.route_other resolved other, if_pos ranged]

end

end Planned

end Missive.Plan
