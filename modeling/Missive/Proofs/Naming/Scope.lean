import Missive.Naming.Scope
import Missive.Proofs.Ends

/-!
# Names of a class body are different

The names of a class body are given in rounds and then extended three times, always against what is
used already.  Two facts carry the result.

**A given name is free.**  `fresh` tries a name with more and more underscores, and no more names can
be taken than there are entries to take them (`exists_fresh`).  So each list of names that
`assignAll` gives is free of repetitions and apart from all that was used or reserved
(`assignAll_given`).

**The rounds settle.**  A round may bring methods whose names it did not keep free.  Underscores do
not count for the `weight` of a name, so renaming leaves it alone, while a method weighs more than
what it belongs to.  Hence a round that kept free the methods of all lighter names gives the names of
the least remaining weight for good (`Settled.next`), and as many rounds as there are names leave
nothing open (`settle_isSettled`).
-/

namespace Missive.Naming

open List

variable {name given method : String} {reserved used free : List String} {bound : Nat} {d : ScopeDecl}

variable {fields oneofs : List String} {r : Round}

/-! ## Free names -/

/-- A name with underscores at its end. -/
def padded (name : String) (count : Nat) : String := name ++ String.ofList (List.replicate count '_')

@[simp] lemma padded_zero (name : String) : padded name 0 = name := by
  apply String.toList_injective
  simp [padded]

lemma padded_append (name : String) (count : Nat) :
    padded (name ++ "_") count = padded name (count + 1) := by
  apply String.toList_injective
  simp [padded, replicate_succ]

lemma padded_injective (name : String) : Function.Injective (padded name) := by
  intro i j same
  have lengths := congrArg (fun s => s.toList.length) same
  simpa [padded] using lengths

/-- What is tried before the turns run out is taken. -/
lemma freshWithin_spec (taken : List String) (turns : Nat) (name : String) :
    ∃ count ≤ turns, freshWithin taken turns name = padded name count
      ∧ (∀ i < count, padded name i ∈ taken) ∧ (count < turns → padded name count ∉ taken) := by
  induction turns generalizing name with
  | zero => exact ⟨0, le_rfl, by simp [freshWithin], by simp, by simp⟩
  | succ turns ih =>
    by_cases there : name ∈ taken
    · obtain ⟨count, bound, given, before, free⟩ := ih (name ++ "_")
      refine ⟨count + 1, by omega, ?_, ?_, ?_⟩
      · rw [freshWithin, if_pos (by simpa using there), given, padded_append]
      · intro i below
        cases i with
        | zero => simpa using there
        | succ i => exact padded_append name i ▸ before i (by omega)
      · intro below
        exact padded_append name count ▸ free (by omega)
    · refine ⟨0, by omega, ?_, by simp, by simpa using there⟩
      rw [freshWithin, if_neg (by simpa using there), padded_zero]

/-- A name that is given is the first one that is not taken: the list of taken names is too short to
hold all that are tried. -/
lemma exists_fresh (taken : List String) (name : String) :
    ∃ count, fresh taken name = padded name count ∧ padded name count ∉ taken ∧ ∀ i < count, padded name i ∈ taken := by
  obtain ⟨count, bound, given, before, free⟩ := freshWithin_spec taken taken.length name
  refine ⟨count, given, fun there => ?_, before⟩
  have full : count = taken.length := by
    by_contra short
    exact free (by omega) there
  have tried : ((List.range (count + 1)).map (padded name)).Subperm taken := by
    refine subperm_of_subset (nodup_range.map (padded_injective name)) fun x member => ?_
    obtain ⟨i, below, rfl⟩ := mem_map.1 member
    rcases Nat.lt_succ_iff_lt_or_eq.1 (mem_range.1 below) with earlier | rfl
    · exact before i earlier
    · exact there
  have := tried.length_le
  simp only [length_map, length_range] at this
  omega

lemma fresh_congr {taken taken' : List String}
    (same : ∀ count, padded name count ∈ taken ↔ padded name count ∈ taken') :
    fresh taken name = fresh taken' name := by
  obtain ⟨i, given, free, before⟩ := exists_fresh taken name
  obtain ⟨j, given', free', before'⟩ := exists_fresh taken' name
  rcases Nat.lt_trichotomy i j with less | rfl | more
  · exact absurd ((same i).2 (before' i less)) free
  · rw [given, given']
  · exact absurd ((same j).1 (before j more)) free'

/-- What is given for a name: it with underscores, and neither a keyword nor reserved nor used. -/
structure Given (reserved used : List String) (name given : String) : Prop where
  grown : ∃ count, given = padded (identifier name) count
  keyword : given ∉ keywords
  reserved : given ∉ reserved
  used : given ∉ used

lemma Given.mono {used' : List String} (h : Given reserved used name given) (fewer : used' ⊆ used) :
    Given reserved used' name given :=
  { h with used := fun old => h.used (fewer old) }

lemma assign_given (reserved used : List String) (name : String) :
    Given reserved used name (assign reserved used name) := by
  obtain ⟨count, given, free, -⟩ := exists_fresh (keywords ++ reserved ++ used) (identifier name)
  have outside : assign reserved used name ∉ keywords ++ reserved ++ used := by
    rw [assign, given]
    exact free
  simp only [mem_append, not_or] at outside
  exact ⟨⟨count, given⟩, outside.1.1, outside.1.2, outside.2⟩

/-- Each of the names that are given in a row is free, they are different from each other, and they
are what is used more in the end. -/
lemma assignAll_given (reserved used names : List String) :
    Forall₂ (Given reserved used) names (assignAll reserved used names).1 ∧ (assignAll reserved used names).1.Nodup
      ∧ (assignAll reserved used names).2 = (assignAll reserved used names).1.reverse ++ used := by
  induction names generalizing used with
  | nil => simp [assignAll]
  | cons name rest ih =>
    obtain ⟨others, distinct, grown⟩ := ih (assign reserved used name :: used)
    simp only [assignAll]
    refine ⟨.cons (assign_given reserved used name) ?_, ?_, by simp [grown]⟩
    · exact others.imp fun _ _ given => given.mono (subset_cons_self _ _)
    · refine nodup_cons.2 ⟨fun again => ?_, distinct⟩
      obtain ⟨_, -, given⟩ := exists_left_of_mem others again
      exact given.used (.head _)

/-! ## The weight of a name -/

/-- The number of characters of a name that are no underscores. -/
def weight (name : String) : Nat := name.toList.countP (· != '_')

@[simp] lemma weight_append (a b : String) : weight (a ++ b) = weight a + weight b := by
  simp [weight]

@[simp] lemma weight_padded (name : String) (count : Nat) : weight (padded name count) = weight name := by
  have : weight (String.ofList (List.replicate count '_')) = 0 := by
    simp [weight, countP_replicate]
  simp [padded, this]

lemma Given.weight_eq (h : Given reserved used name given) : weight given = weight (identifier name) := by
  obtain ⟨count, rfl⟩ := h.grown
  simp

lemma weight_lt_of_fieldAccessors (h : method ∈ fieldAccessors name) :
    weight name < weight method := by
  have has : weight "has_" = 3 := by decide
  have clear : weight "clear_" = 5 := by decide
  have mutable : weight "mutable_" = 7 := by decide
  simp only [fieldAccessors, mem_cons, not_mem_nil, or_false] at h
  rcases h with rfl | rfl | rfl <;> simp only [weight_append] <;> omega

lemma oneofAccessors_subset (name : String) : oneofAccessors name ⊆ fieldAccessors name := by
  simp [oneofAccessors, fieldAccessors]

lemma mem_accessors :
    method ∈ accessors fields oneofs ↔ (∃ name ∈ fields, method ∈ fieldAccessors name)
        ∨ ∃ name ∈ oneofs, method ∈ oneofAccessors name := by
  simp [accessors]

/-- Names that are the same as far as they weigh less than a bound. -/
def Alike (bound : Nat) (a b : String) : Prop := weight a = weight b ∧ (weight a < bound → a = b)

/-- Lists that hold the same names as far as these weigh less than a bound. -/
def SameBelow (bound : Nat) (a b : List String) : Prop := ∀ x, weight x < bound → (x ∈ a ↔ x ∈ b)

lemma SameBelow.append {a b a' b' : List String} (first : SameBelow bound a b)
    (second : SameBelow bound a' b') : SameBelow bound (a ++ a') (b ++ b') := by
  intro x light
  simp [first x light, second x light]

lemma SameBelow.refl (bound : Nat) (a : List String) : SameBelow bound a a := fun _ _ => Iff.rfl

/-- Which names are given depends only on reserved and used names of the same weight. -/
lemma assignAll_alike {reserved' used' : List String} (sameReserved : SameBelow bound reserved reserved')
    (sameUsed : SameBelow bound used used') (names : List String) :
    Forall₂ (Alike bound) (assignAll reserved used names).1 (assignAll reserved' used' names).1
      ∧ SameBelow bound (assignAll reserved used names).2 (assignAll reserved' used' names).2 := by
  induction names generalizing used used' with
  | nil => exact ⟨.nil, sameUsed⟩
  | cons name rest ih =>
    have first : Alike bound (assign reserved used name) (assign reserved' used' name) := by
      have given := (assign_given reserved used name).weight_eq
      refine ⟨given.trans (assign_given reserved' used' name).weight_eq.symm, fun light => ?_⟩
      have taken := ((SameBelow.refl bound keywords).append sameReserved).append sameUsed
      exact fresh_congr fun count => taken _ (by rw [weight_padded]; omega)
    have grown : SameBelow bound (assign reserved used name :: used) (assign reserved' used' name :: used') := by
      intro x light
      have same : x = assign reserved used name ↔ x = assign reserved' used' name := by
        constructor
        · rintro rfl
          exact first.2 light
        · rintro rfl
          exact (first.2 (first.1 ▸ light)).symm
      simp [same, sameUsed x light]
    obtain ⟨others, used⟩ := ih grown
    exact ⟨.cons first others, used⟩

lemma nameRound_alike (d : ScopeDecl) {free' : List String} (same : SameBelow bound free free') :
    Forall₂ (Alike bound) (nameRound d free).fields (nameRound d free').fields
      ∧ Forall₂ (Alike bound) (nameRound d free).oneofs (nameRound d free').oneofs := by
  have reserved := (SameBelow.refl bound reservedAttributes).append same
  obtain ⟨fields, used⟩ := assignAll_alike reserved (.refl bound []) d.fields
  exact ⟨fields, (assignAll_alike reserved used d.oneofs).1⟩

/-! ## The rounds settle -/

/-- What a round has: its names are those of the declarations with underscores, free and different. -/
lemma nameRound_given (d : ScopeDecl) (free : List String) :
    Forall₂ (Given (reservedAttributes ++ free) []) d.fields (nameRound d free).fields
      ∧ Forall₂ (Given (reservedAttributes ++ free) (nameRound d free).fields) d.oneofs (nameRound d free).oneofs
      ∧ ((nameRound d free).fields ++ (nameRound d free).oneofs).Nodup
      ∧ (nameRound d free).used = (nameRound d free).oneofs.reverse ++ (nameRound d free).fields.reverse := by
  obtain ⟨fields, distinct, used⟩ := assignAll_given (reservedAttributes ++ free) [] d.fields
  obtain ⟨oneofs, distinct', used'⟩ := assignAll_given (reservedAttributes ++ free)
    (assignAll (reservedAttributes ++ free) [] d.fields).2 d.oneofs
  have apart : Forall₂ (Given (reservedAttributes ++ free) (nameRound d free).fields) d.oneofs
      (nameRound d free).oneofs :=
    oneofs.imp fun _ _ given => given.mono fun _ old => by simpa [used, nameRound] using old
  refine ⟨fields, apart, nodup_append.2 ⟨distinct, distinct', ?_⟩, ?_⟩
  · rintro x field y member rfl
    obtain ⟨_, -, given⟩ := exists_left_of_mem apart member
    exact given.used field
  · simpa [nameRound, used] using used'

lemma exists_given (member : name ∈ (nameRound d free).fields ++ (nameRound d free).oneofs) :
    ∃ declared ∈ d.fields ++ d.oneofs, Given (reservedAttributes ++ free) [] declared name := by
  obtain ⟨fields, oneofs, -, -⟩ := nameRound_given d free
  rcases mem_append.1 member with field | oneof
  · obtain ⟨declared, inside, given⟩ := exists_left_of_mem fields field
    exact ⟨declared, mem_append_left _ inside, given⟩
  · obtain ⟨declared, inside, given⟩ := exists_left_of_mem oneofs oneof
    exact ⟨declared, mem_append_right _ inside, given.mono (nil_subset _)⟩

/-- The round kept free all methods of names that weigh less than a bound. -/
def Settled (bound : Nat) (r : Round) : Prop :=
  (∀ name ∈ r.fields, weight name < bound → fieldAccessors name ⊆ r.free)
    ∧ ∀ name ∈ r.oneofs, weight name < bound → oneofAccessors name ⊆ r.free

lemma mem_missing :
    method ∈ r.missing ↔ method ∈ accessors r.fields r.oneofs ∧ method ∉ r.free := by
  simp [Round.missing]

/-- What is missing belongs to names that are not below the bound. -/
lemma Settled.le_weight (settled : Settled bound r) (missing : method ∈ r.missing) :
    ∃ name ∈ r.fields ++ r.oneofs, bound ≤ weight name ∧ weight name < weight method := by
  obtain ⟨brought, open_⟩ := mem_missing.1 missing
  rcases mem_accessors.1 brought with ⟨name, member, own⟩ | ⟨name, member, own⟩
  · refine ⟨name, by simp [member], ?_, weight_lt_of_fieldAccessors own⟩
    by_contra light
    exact open_ (settled.1 name member (by omega) own)
  · refine ⟨name, by simp [member], ?_, weight_lt_of_fieldAccessors (oneofAccessors_subset _ own)⟩
    by_contra light
    exact open_ (settled.2 name member (by omega) own)

/-- A round and the next one, which keeps free what was missing.  If no open name weighs less than
`bound`, then the next round keeps the methods of all names of weight `bound` free. -/
lemma Settled.next (settled : Settled bound (nameRound d free)) :
    Settled (bound + 1) (nameRound d (free ++ (nameRound d free).missing)) := by
  -- What is missing weighs more than `bound`, so both rounds give the same names up to there.
  have same : SameBelow (bound + 1) free (free ++ (nameRound d free).missing) := by
    intro x light
    simp only [mem_append, iff_self_or]
    intro missing
    obtain ⟨name, -, heavy, heavier⟩ := settled.le_weight missing
    omega
  obtain ⟨fields, oneofs⟩ := nameRound_alike d same
  have kept : ∀ method ∈ accessors (nameRound d free).fields (nameRound d free).oneofs,
      method ∈ free ++ (nameRound d free).missing := by
    intro method brought
    by_cases old : method ∈ free
    · exact mem_append_left _ old
    · exact mem_append_right _ (mem_missing.2 ⟨brought, old⟩)
  constructor
  · intro name member light method own
    obtain ⟨before, old, alike⟩ := exists_left_of_mem fields member
    obtain rfl := alike.2 (alike.1 ▸ light)
    exact kept method (mem_accessors.2 (.inl ⟨before, old, own⟩))
  · intro name member light method own
    obtain ⟨before, old, alike⟩ := exists_left_of_mem oneofs member
    obtain rfl := alike.2 (alike.1 ▸ light)
    exact kept method (mem_accessors.2 (.inr ⟨before, old, own⟩))

/-- The weights of the names of a round are those of the declarations. -/
def ScopeDecl.weights (d : ScopeDecl) : List Nat :=
  (d.fields ++ d.oneofs).map fun name => weight (identifier name)

lemma mem_weights (member : name ∈ (nameRound d free).fields ++ (nameRound d free).oneofs) :
    weight name ∈ d.weights := by
  obtain ⟨declared, inside, given⟩ := exists_given member
  exact given.weight_eq ▸ mem_map_of_mem inside

/-- A bound can be raised up to the least weight that is not below it. -/
lemma Settled.raise {higher : Nat} (settled : Settled bound (nameRound d free))
    (gap : ∀ w ∈ d.weights, bound ≤ w → higher ≤ w) : Settled higher (nameRound d free) := by
  constructor
  · intro name member light
    refine settled.1 name member ?_
    by_contra heavy
    have := gap _ (mem_weights (mem_append_left _ member)) (by omega)
    omega
  · intro name member light
    refine settled.2 name member ?_
    by_contra heavy
    have := gap _ (mem_weights (mem_append_right _ member)) (by omega)
    omega

/-- Nothing is open any more once no name weighs as much as the bound. -/
lemma Settled.isSettled (settled : Settled bound (nameRound d free)) (all : ∀ w ∈ d.weights, w < bound) :
    (nameRound d free).isSettled = true := by
  rw [Round.isSettled, List.isEmpty_iff, eq_nil_iff_forall_not_mem]
  intro method missing
  obtain ⟨name, member, heavy, -⟩ := settled.le_weight missing
  have := all _ (mem_weights member)
  omega

/-- Fewer weights lie above one of them than above a bound below it. -/
lemma countP_lt_of_mem {weights : List Nat} {w : Nat} (inside : w ∈ weights) (heavy : bound ≤ w) :
    weights.countP (w + 1 ≤ ·) < weights.countP (bound ≤ ·) := by
  induction weights with
  | nil => cases inside
  | cons v rest ih =>
    have fewer : rest.countP (w + 1 ≤ ·) ≤ rest.countP (bound ≤ ·) :=
      countP_mono_left fun u _ more => by simp only [decide_eq_true_eq] at more ⊢; omega
    simp only [countP_cons, decide_eq_true_eq]
    rcases mem_cons.1 inside with rfl | later
    · rw [if_neg (by omega), if_pos heavy]
      omega
    · have := ih later
      split <;> split <;> omega

/-- **The rounds settle.**  A round that is settled below a bound is followed by at most as many
rounds as there are declared names of that weight or more: each round settles the least of them. -/
lemma settle_isSettled_of {turns : Nat} (settled : Settled bound (nameRound d free))
    (enough : d.weights.countP (bound ≤ ·) ≤ turns) : (settle d turns free).isSettled = true := by
  induction turns generalizing free bound with
  | zero =>
    have none : ∀ w ∈ d.weights, w < bound := by
      intro w member
      have := countP_eq_zero.1 (Nat.le_zero.1 enough) w member
      simpa using this
    exact settled.isSettled none
  | succ turns ih =>
    rw [settle]
    split
    · assumption
    · rename_i open_
      -- The least weight that is not below the bound.
      obtain ⟨least, ⟨inside, heavy⟩, minimal⟩ : ∃ w, (w ∈ d.weights ∧ bound ≤ w)
          ∧ ∀ v ∈ d.weights, bound ≤ v → w ≤ v := by
        have some : ∃ w, w ∈ d.weights ∧ bound ≤ w := by
          by_contra none
          push Not at none
          exact open_ (settled.isSettled none)
        classical
        exact ⟨Nat.find some, Nat.find_spec some, fun v member heavy =>
          Nat.find_min' some ⟨member, heavy⟩⟩
      refine ih (settled.raise minimal).next (Nat.le_of_lt_succ (lt_of_lt_of_le ?_ enough))
      exact countP_lt_of_mem inside heavy

/-- What is kept free after so many rounds. -/
def kept (d : ScopeDecl) (free : List String) : Nat → List String
  | 0 => free
  | count + 1 => kept d (free ++ (nameRound d free).missing) count

lemma Round.isSettled_iff : r.isSettled = true ↔ accessors r.fields r.oneofs ⊆ r.free := by
  simp [Round.isSettled, Round.missing, filter_eq_nil_iff, subset_def]

/-- The rounds end with the first one that is settled, or with the last turn. -/
lemma settle_eq (d : ScopeDecl) (turns : Nat) (free : List String) :
    ∃ count ≤ turns, settle d turns free = nameRound d (kept d free count)
      ∧ ∀ i < count, (nameRound d (kept d free i)).isSettled = false := by
  induction turns generalizing free with
  | zero => exact ⟨0, le_rfl, rfl, by simp⟩
  | succ turns ih =>
    rw [settle]
    split
    · exact ⟨0, by omega, rfl, by simp⟩
    · rename_i open_
      obtain ⟨count, bound, same, before⟩ := ih (free ++ (nameRound d free).missing)
      refine ⟨count + 1, by omega, same, fun i below => ?_⟩
      cases i with
      | zero => exact Bool.eq_false_iff.2 open_
      | succ i => exact before i (by omega)

lemma settle_isSettled (d : ScopeDecl) (free : List String) :
    (settle d (d.fields.length + d.oneofs.length) free).isSettled = true := by
  have start : Settled 0 (nameRound d free) := ⟨by simp, by simp⟩
  exact settle_isSettled_of start (countP_le_length.trans (by simp [ScopeDecl.weights]))

/-- The round after so many others, where at first the methods of unchanged names are kept free. -/
def roundAfter (d : ScopeDecl) (count : Nat) : Round :=
  nameRound d (kept d (accessors (d.fields.map identifier) (d.oneofs.map identifier)) count)

/-- **Renaming ends.**  For any names of fields and oneofs, some round has only methods that it kept free, after
no more rounds than there are names, and the first such round gives the names.  Whatever is taken, a name that
is given is the first of its identifier with more and more underscores that is not. -/
theorem renaming_settles (d : ScopeDecl) (reserved used : List String) (name : String) :
    (∃ count ≤ d.fields.length + d.oneofs.length,
      accessors (roundAfter d count).fields (roundAfter d count).oneofs ⊆ (roundAfter d count).free
      ∧ (∀ i < count, ¬accessors (roundAfter d i).fields (roundAfter d i).oneofs ⊆ (roundAfter d i).free)
      ∧ (nameScope d).fields = (roundAfter d count).fields ∧ (nameScope d).oneofs = (roundAfter d count).oneofs)
    ∧ ∃ count, assign reserved used name = padded (identifier name) count
      ∧ padded (identifier name) count ∉ keywords ++ reserved ++ used
      ∧ ∀ i < count, padded (identifier name) i ∈ keywords ++ reserved ++ used := by
  refine ⟨?_, exists_fresh _ _⟩
  obtain ⟨count, bound, round, before⟩ := settle_eq d (d.fields.length + d.oneofs.length)
    (accessors (d.fields.map identifier) (d.oneofs.map identifier))
  have round : _ = roundAfter d count := round
  refine ⟨count, bound, ?_, fun i below settled => ?_, congrArg Round.fields round, congrArg Round.oneofs round⟩
  · rw [← Round.isSettled_iff, ← round]
    exact settle_isSettled d _
  · exact Bool.false_ne_true ((before i below).symm.trans (Round.isSettled_iff.2 settled))

/-! ## Methods -/

lemma eq_of_fieldAccessors {name' : String} (h : method ∈ fieldAccessors name)
    (h' : method ∈ fieldAccessors name') : name = name' := by
  simp only [fieldAccessors, mem_cons, not_mem_nil, or_false] at h h'
  rcases h with rfl | rfl | rfl <;> rcases h' with same | same | same <;>
    simp_all [← String.toList_inj]

lemma nodup_fieldAccessors (name : String) : (fieldAccessors name).Nodup := by
  simp [fieldAccessors]

/-- Different names have different methods. -/
lemma nodup_accessors (distinct : (fields ++ oneofs).Nodup) :
    (accessors fields oneofs).Nodup := by
  obtain ⟨distinctFields, distinctOneofs, apart⟩ := nodup_append.1 distinct
  refine nodup_append.2 ⟨?_, ?_, ?_⟩
  · refine nodup_flatMap.2 ⟨fun name _ => nodup_fieldAccessors name, distinctFields.imp ?_⟩
    intro a b other method own own'
    exact other (eq_of_fieldAccessors own own')
  · refine nodup_flatMap.2 ⟨fun name _ => by simp [oneofAccessors], distinctOneofs.imp ?_⟩
    intro a b other method own own'
    exact other (eq_of_fieldAccessors (oneofAccessors_subset _ own) (oneofAccessors_subset _ own'))
  · rintro method ofField _ ofOneof rfl
    obtain ⟨field, inside, own⟩ := mem_flatMap.1 ofField
    obtain ⟨oneof, inside', own'⟩ := mem_flatMap.1 ofOneof
    exact apart field inside oneof inside' (eq_of_fieldAccessors own (oneofAccessors_subset _ own'))

/-! ## Attributes that store values -/

/-- Is a text an identifier: not empty, without other characters, and with no digit in front? -/
structure IsIdentifier (name : String) : Prop where
  word : ∀ c ∈ name.toList, Text.isWord c = true
  start : ∃ c rest, name.toList = c :: rest ∧ Text.isDigit c = false

lemma isWord_underscore : Text.isWord '_' = true := by decide

lemma isDigit_underscore : Text.isDigit '_' = false := by decide

lemma isIdentifier_identifier (name : String) : IsIdentifier (identifier name) := by
  have word : ∀ c ∈ name.toList.map fun c => if Text.isWord c then c else '_', Text.isWord c = true := by
    intro c member
    obtain ⟨b, -, rfl⟩ := mem_map.1 member
    split
    · assumption
    · exact isWord_underscore
  unfold identifier
  generalize (name.toList.map fun c => if Text.isWord c then c else '_') = chars at word
  cases chars with
  | nil => exact ⟨by simp [isWord_underscore], '_', [], by simp, isDigit_underscore⟩
  | cons c rest =>
    cases digit : Text.isDigit c with
    | true =>
      refine ⟨?_, '_', c :: rest, by simp [digit], isDigit_underscore⟩
      simpa [digit, isWord_underscore] using word
    | false => exact ⟨by simpa [digit] using word, c, rest, by simp [digit], digit⟩

lemma IsIdentifier.identifier_eq (h : IsIdentifier name) : identifier name = name := by
  obtain ⟨c, rest, chars, digit⟩ := h.start
  have same : (name.toList.map fun c => if Text.isWord c then c else '_') = name.toList := by
    refine map_congr_left (fun b member => ?_) |>.trans (map_id' _)
    rw [if_pos (h.word b member)]
  apply String.toList_injective
  rw [identifier, same, chars]
  simp [digit]

lemma IsIdentifier.padded (h : IsIdentifier name) (count : Nat) :
    IsIdentifier (padded name count) := by
  obtain ⟨c, rest, chars, digit⟩ := h.start
  refine ⟨fun b member => ?_, c, rest ++ List.replicate count '_', ?_, digit⟩
  · simp only [Naming.padded, String.toList_append, String.toList_ofList, mem_append, mem_replicate] at member
    rcases member with old | ⟨-, rfl⟩
    · exact h.word b old
    · exact isWord_underscore
  · simp [Naming.padded, chars]

lemma Given.isIdentifier (h : Given reserved used name given) : IsIdentifier given := by
  obtain ⟨count, rfl⟩ := h.grown
  exact (isIdentifier_identifier name).padded count

/-- The attribute of an identifier is an identifier, whose second character is no underscore. -/
lemma IsIdentifier.storageName (h : IsIdentifier name) :
    IsIdentifier (storageName name) ∧ ∃ c rest, (storageName name).toList = '_' :: c :: rest ∧ c ≠ '_' := by
  obtain ⟨c, rest, chars, -⟩ := h.start
  have word : ∀ b ∈ (Naming.storageName name).toList, Text.isWord b = true := by
    obtain ⟨front, whole, letters⟩ : ∃ front, Naming.storageName name = front ++ name
        ∧ ∀ b ∈ front.toList, Text.isWord b = true := by
      unfold Naming.storageName
      split <;> exact ⟨_, rfl, by simp; decide⟩
    rw [whole, String.toList_append, forall_mem_append]
    exact ⟨letters, h.word⟩
  have second : ∃ c rest, (Naming.storageName name).toList = '_' :: c :: rest ∧ c ≠ '_' := by
    unfold Naming.storageName
    split
    · exact ⟨'f', c :: rest, by simp [chars], by decide⟩
    · rename_i other
      refine ⟨c, rest, by simp [chars], ?_⟩
      rintro rfl
      exact other (String.startsWith_string_iff.2 (by simp [chars]))
  obtain ⟨b, more, spelled, other⟩ := second
  exact ⟨⟨word, '_', b :: more, spelled, isDigit_underscore⟩, b, more, spelled, other⟩

lemma Given.startsWith_eq_false (h : Given reserved used (storageName name) given) (named : IsIdentifier name) :
    given.startsWith "__" = false := by
  obtain ⟨whole, c, rest, spelled, other⟩ := named.storageName
  obtain ⟨count, rfl⟩ := h.grown
  rw [whole.identifier_eq, String.startsWith_string_eq_false_iff]
  rintro ⟨tail, same⟩
  obtain ⟨second, -⟩ : '_' = c ∧ _ := by simpa [padded, spelled] using same
  exact other second.symm

/-! ## Class bodies -/

namespace ScopeNames

/-- The names of what is declared or stored in a class body. -/
def own (s : ScopeNames) : List String :=
  s.fields ++ s.oneofs ++ s.oneofClasses ++ s.nested ++ s.fieldStorage ++ s.oneofStorage

/-- The names of the attributes that store values. -/
def stored (s : ScopeNames) : List String := s.fieldStorage ++ s.oneofStorage

/-- All names of a class body, those of methods included. -/
def body (s : ScopeNames) : List String :=
  s.fields ++ s.oneofs ++ accessors s.fields s.oneofs ++ s.oneofClasses ++ s.nested ++ s.fieldStorage ++ s.oneofStorage

end ScopeNames

/-- Names that are given against all that is used extend a list of different used names. -/
lemma nodup_append_assignAll {known : List String} (reserved names : List String) (distinct : known.Nodup)
    (inside : known ⊆ used) :
    (known ++ (assignAll reserved used names).1).Nodup
      ∧ known ++ (assignAll reserved used names).1 ⊆ (assignAll reserved used names).2 := by
  obtain ⟨given, distinct', grown⟩ := assignAll_given reserved used names
  refine ⟨nodup_append.2 ⟨distinct, distinct', ?_⟩, ?_⟩
  · rintro x old _ new rfl
    obtain ⟨_, -, free⟩ := exists_left_of_mem given new
    exact free.used (inside old)
  · intro x member
    rw [grown]
    rcases mem_append.1 member with old | new
    · exact mem_append_right _ (inside old)
    · exact mem_append_left _ (mem_reverse.2 new)

lemma exists_of_mem_accessors (member : name ∈ accessors fields oneofs) :
    ∃ owner, name ∈ fieldAccessors owner := by
  rcases mem_accessors.1 member with ⟨owner, -, own⟩ | ⟨owner, -, own⟩
  · exact ⟨owner, own⟩
  · exact ⟨owner, oneofAccessors_subset owner own⟩

/-- The names that are kept free are those of methods. -/
lemma mem_kept (methods : ∀ x ∈ free, ∃ owner, x ∈ fieldAccessors owner)
    (count : Nat) : ∀ x ∈ kept d free count, ∃ owner, x ∈ fieldAccessors owner := by
  induction count generalizing free with
  | zero => exact methods
  | succ count ih =>
    refine ih fun x member => ?_
    rcases mem_append.1 member with old | new
    · exact methods x old
    · exact exists_of_mem_accessors (mem_missing.1 new).1

/-- The last round of names: it kept free all its methods, and only names of methods. -/
lemma exists_round (d : ScopeDecl) :
    ∃ free, settle d (d.fields.length + d.oneofs.length)
          (accessors (d.fields.map identifier) (d.oneofs.map identifier)) = nameRound d free
        ∧ accessors (nameRound d free).fields (nameRound d free).oneofs ⊆ free
        ∧ ∀ x ∈ free, ∃ owner, x ∈ fieldAccessors owner := by
  have settled := settle_isSettled d (accessors (d.fields.map identifier) (d.oneofs.map identifier))
  obtain ⟨count, -, round, -⟩ := settle_eq d (d.fields.length + d.oneofs.length)
    (accessors (d.fields.map identifier) (d.oneofs.map identifier))
  rw [round, Round.isSettled_iff] at settled
  exact ⟨_, round, settled, mem_kept (fun _ => exists_of_mem_accessors) count⟩

/-- The names of fields and oneofs are identifiers. -/
lemma isIdentifier_of_mem (member : name ∈ (nameScope d).fields ++ (nameScope d).oneofs) : IsIdentifier name := by
  obtain ⟨free, round, -, -⟩ := exists_round d
  simp only [nameScope, round] at member
  obtain ⟨_, -, given⟩ := exists_given member
  exact given.isIdentifier

/-- An attribute is given for that of an identifier. -/
lemma exists_stored (member : name ∈ (nameScope d).stored) :
    ∃ source used, IsIdentifier source ∧ Given reservedAttributes used (storageName source) name := by
  rcases mem_append.1 member with member | member
  all_goals
    obtain ⟨_, source, given⟩ := exists_left_of_mem (assignAll_given _ _ _).1 member
    obtain ⟨named, declared, rfl⟩ := mem_map.1 source
    refine ⟨named, _, isIdentifier_of_mem (d := d) ?_, given⟩
  · exact mem_append_left _ declared
  · exact mem_append_right _ declared

/-- Fields, oneofs and their methods have different names once a round is settled. -/
lemma nodup_round (settled : accessors (nameRound d free).fields (nameRound d free).oneofs ⊆ free) :
    ((nameRound d free).fields ++ (nameRound d free).oneofs
        ++ accessors (nameRound d free).fields (nameRound d free).oneofs).Nodup := by
  obtain ⟨-, -, distinct, -⟩ := nameRound_given d free
  refine nodup_append.2 ⟨distinct, nodup_accessors distinct, ?_⟩
  rintro name member _ brought rfl
  obtain ⟨_, -, given⟩ := exists_given member
  exact given.reserved (mem_append_right _ (settled brought))

/-- **The names of a class body.**  Whatever is declared, all names of the body are different, what
is declared or stored is called neither like a keyword nor like a reserved attribute, and nothing
that is stored is private. -/
lemma nameScope_spec (d : ScopeDecl) :
    (nameScope d).body.Nodup ∧ (∀ name ∈ (nameScope d).own, name ∉ keywords ∧ name ∉ reservedAttributes)
      ∧ ∀ name ∈ (nameScope d).stored, name.startsWith "__" = false := by
  rw [← and_assoc]
  refine ⟨?_, fun name member => ?_⟩
  case refine_2 =>
    obtain ⟨source, used, named, given⟩ := exists_stored member
    exact given.startsWith_eq_false named
  obtain ⟨free, round, settled, -⟩ := exists_round d
  obtain ⟨-, -, -, used⟩ := nameRound_given d free
  simp only [nameScope, round]
  -- Each list of names is given against all before it.
  have inside : (nameRound d free).fields ++ (nameRound d free).oneofs
      ++ accessors (nameRound d free).fields (nameRound d free).oneofs
      ⊆ (nameRound d free).used ++ (nameRound d free).free := by
    intro name member
    rw [used]
    rcases mem_append.1 member with declared | brought
    · refine mem_append_left _ ?_
      simpa [or_comm] using declared
    · exact mem_append_right _ (settled brought)
  obtain ⟨distinct, inside⟩ := nodup_append_assignAll reservedAttributes
    (d.oneofs.map fun name => "Oneof" ++ upperCamelCase name) (nodup_round settled) inside
  obtain ⟨distinct, inside⟩ := nodup_append_assignAll reservedAttributes d.nested distinct inside
  obtain ⟨distinct, inside⟩ := nodup_append_assignAll reservedAttributes
    ((nameRound d free).fields.map storageName) distinct inside
  obtain ⟨distinct, -⟩ := nodup_append_assignAll reservedAttributes
    ((nameRound d free).oneofs.map storageName) distinct inside
  refine ⟨distinct, fun name member => ?_⟩
  simp only [ScopeNames.own, append_assoc] at member
  rw [← append_assoc] at member
  rcases mem_append.1 member with declared | later
  · obtain ⟨_, -, given⟩ := exists_given declared
    exact ⟨given.keyword, fun old => given.reserved (mem_append_left _ old)⟩
  · simp only [mem_append] at later
    rcases later with later | later | later | later
    all_goals
      obtain ⟨_, -, given⟩ := exists_left_of_mem (assignAll_given _ _ _).1 later
      exact ⟨given.keyword, given.reserved⟩

end Missive.Naming
