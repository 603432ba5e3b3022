import Missive.Proofs.Naming.Scope

/-!
# Which declaration gets a name

Names are given in the order of the declarations, fields before oneofs.  A name that neither is
reserved nor ends with an underscore is only ever given as it is, so the first declaration whose
identifier it is gets it (`nameScope_eq_iff`).  An attribute that stores a value is such a name
too: it is given unless a field, a oneof or a nested message has taken it (`stored_eq_iff`).
-/

namespace Missive.Naming

open List

variable {x name : String} {i : Nat} {d : ScopeDecl} {reserved : List String}

/-- Is a name neither a keyword nor reserved, and without an underscore at its end? -/
structure Plain (reserved : List String) (name : String) : Prop where
  keyword : name ∉ keywords
  unreserved : name ∉ reserved
  bare : name.toList.getLast? ≠ some '_'

lemma padded_eq_iff {count : Nat} (bare : x.toList.getLast? ≠ some '_') :
    padded name count = x ↔ count = 0 ∧ name = x := by
  constructor
  · intro same
    cases count with
    | zero => exact ⟨rfl, by simpa using same⟩
    | succ =>
      refine absurd ?_ bare
      simp [← same, padded, replicate_succ']
  · rintro ⟨rfl, rfl⟩
    exact padded_zero name

/-- A plain name is given to its identifier, unless it is in use. -/
lemma assign_eq_iff (plain : Plain reserved x) (used : List String) (name : String) :
    assign reserved used name = x ↔ identifier name = x ∧ x ∉ used := by
  obtain ⟨count, given, free, before⟩ := exists_fresh (keywords ++ reserved ++ used) (identifier name)
  rw [assign, given, padded_eq_iff plain.bare]
  constructor
  · rintro ⟨rfl, rfl⟩
    simp only [padded_zero, mem_append, not_or] at free
    exact ⟨rfl, free.2⟩
  · rintro ⟨rfl, unused⟩
    refine ⟨?_, rfl⟩
    by_contra more
    have taken := before 0 (Nat.pos_of_ne_zero more)
    simp [plain.keyword, plain.unreserved, unused] at taken

/-- **The first claim counts.**  Of several names, a plain one that is not in use goes to the first
whose identifier it is. -/
lemma assignAll_getElem?_iff {used names : List String} (plain : Plain reserved x) :
    (assignAll reserved used names).1[i]? = some x ↔ x ∉ used ∧ names.findIdx? (identifier · == x) = some i := by
  induction names generalizing used i with
  | nil => simp [assignAll]
  | cons name rest ih =>
    have first := assign_eq_iff plain used name
    rw [findIdx?_cons]
    by_cases own : identifier name = x
    · -- From here on the name is in use.
      cases i with
      | zero => simp [assignAll, own, first]
      | succ =>
        simp only [assignAll, getElem?_cons_succ, ih, mem_cons, not_or, own, beq_self_eq_true,
          if_true, Option.some.injEq]
        constructor
        · rintro ⟨⟨other, unused⟩, -⟩
          exact absurd (first.2 ⟨own, unused⟩).symm other
        · rintro ⟨-, impossible⟩
          exact absurd impossible (by omega)
    · have other : assign reserved used name ≠ x := fun same => own (first.1 same).1
      cases i with
      | zero => simp [assignAll, own, other]
      | succ => simp [assignAll, ih, own, other.symm]

lemma assignAll_append (reserved used names more : List String) :
    (assignAll reserved used (names ++ more)).1 = (assignAll reserved used names).1
        ++ (assignAll reserved (assignAll reserved used names).2 more).1 := by
  induction names generalizing used with
  | nil => rfl
  | cons name rest ih => simp [assignAll, ih]

/-- Which plain names are in use once some names were given. -/
lemma mem_assignAll_iff (plain : Plain reserved x) (used names : List String) :
    x ∈ (assignAll reserved used names).2 ↔ x ∈ used ∨ ∃ name ∈ names, identifier name = x := by
  obtain ⟨-, -, grown⟩ := assignAll_given reserved used names
  rw [grown, mem_append, mem_reverse, mem_iff_getElem?]
  simp only [assignAll_getElem?_iff plain]
  by_cases old : x ∈ used
  · simp [old]
  · have found : (∃ i, names.findIdx? (identifier · == x) = some i) ↔ ∃ name ∈ names, identifier name = x := by
      rw [← Option.isSome_iff_exists, findIdx?_isSome]
      simp
    simp [old, found]

/-! ## Fields and oneofs -/

/-- A plain name that no method can have. -/
structure Claimable (x : String) : Prop extends Plain reservedAttributes x where
  noMethod : ∀ name, x ∉ fieldAccessors name

namespace Claimable

lemma plain (h : Claimable x) {free : List String}
    (methods : ∀ y ∈ free, ∃ name, y ∈ fieldAccessors name) : Plain (reservedAttributes ++ free) x := by
  refine ⟨h.keyword, fun member => ?_, h.bare⟩
  rcases mem_append.1 member with reserved | method
  · exact h.unreserved reserved
  · obtain ⟨name, own⟩ := methods x method
    exact h.noMethod name own

/-- **Who gets a name.**  The first field or oneof whose identifier it is. -/
lemma nameScope_eq_iff (h : Claimable x) :
    ((nameScope d).fields ++ (nameScope d).oneofs)[i]? = some x
      ↔ (d.fields ++ d.oneofs).findIdx? (identifier · == x) = some i := by
  obtain ⟨free, round, -, methods⟩ := exists_round d
  have whole : (nameScope d).fields ++ (nameScope d).oneofs
      = (assignAll (reservedAttributes ++ free) [] (d.fields ++ d.oneofs)).1 := by
    rw [assignAll_append]
    simp only [nameScope, round, nameRound]
  rw [whole, assignAll_getElem?_iff (h.plain methods)]
  simp

/-- A name is in use by fields, oneofs and nested classes where one of them has it as its
identifier. -/
lemma mem_used_iff (h : Claimable x) (noClass : x.toList.head? ≠ some 'O') :
    ∃ used, (nameScope d).fieldStorage ++ (nameScope d).oneofStorage = (assignAll reservedAttributes used
            (((nameScope d).fields ++ (nameScope d).oneofs).map storageName)).1
      ∧ (x ∈ used ↔ ∃ name ∈ d.fields ++ d.oneofs ++ d.nested, identifier name = x) := by
  obtain ⟨free, round, -, methods⟩ := exists_round d
  obtain ⟨-, -, -, usedIs⟩ := nameRound_given d free
  let classes := d.oneofs.map fun name => "Oneof" ++ upperCamelCase name
  let used := (nameRound d free).used ++ (nameRound d free).free
  refine ⟨(assignAll reservedAttributes (assignAll reservedAttributes used classes).2 d.nested).2, ?_, ?_⟩
  · rw [map_append, assignAll_append]
    simp only [nameScope, round, used, classes]
  · have noFree : x ∉ (nameRound d free).free := by
      intro member
      obtain ⟨name, own⟩ := methods x member
      exact h.noMethod name own
    have noClasses : ¬ ∃ name ∈ classes, identifier name = x := by
      rintro ⟨_, member, rfl⟩
      obtain ⟨name, -, rfl⟩ := mem_map.1 member
      refine noClass ?_
      have word : Text.isWord 'O' = true := by decide
      have digit : Text.isDigit 'O' = false := by decide
      simp [identifier, word, digit]
    have declared : x ∈ (nameRound d free).used ↔ ∃ name ∈ d.fields ++ d.oneofs, identifier name = x := by
      have fields := mem_assignAll_iff (h.plain methods) [] d.fields
      have oneofs := mem_assignAll_iff (h.plain methods) (assignAll (reservedAttributes ++ free) [] d.fields).2 d.oneofs
      simp only [nameRound, oneofs, fields, not_mem_nil, false_or, mem_append, or_and_right, exists_or]
    rw [mem_assignAll_iff h.toPlain, mem_assignAll_iff h.toPlain]
    simp only [used, mem_append, declared, noFree, noClasses, or_false, or_and_right, exists_or]

end Claimable

/-! ## Attributes that store values -/

/-- A name whose attribute is told from that of any other name: no underscore in front, and no second
spelling of an attribute. -/
structure Storable (x : String) : Prop where
  public_ : Claimable x
  stored : Claimable ("_" ++ x)
  front : x.toList.head? ≠ some '_'
  single : x.toList.take 2 ≠ ['f', '_']

lemma storageName_eq_iff (h : Storable x) : storageName name = "_" ++ x ↔ name = x := by
  have front : "_".toList = ['_'] := rfl
  have private_ : "_f".toList = ['_', 'f'] := rfl
  unfold storageName
  split
  · rename_i under
    obtain ⟨rest, chars⟩ := String.startsWith_string_iff.1 under
    rw [front] at chars
    constructor
    · intro same
      refine absurd ?_ h.single
      have spelled := congrArg String.toList same
      simp only [String.toList_append, private_, front, ← chars] at spelled
      simp only [cons_append, nil_append, List.cons.injEq, true_and] at spelled
      simp [← spelled]
    · rintro rfl
      exact absurd (by simp [← chars]) h.front
  · constructor
    · intro same
      have spelled := congrArg String.toList same
      simp only [String.toList_append, append_cancel_left_eq] at spelled
      exact String.toList_injective spelled
    · rintro rfl
      rfl

lemma nodup_names (d : ScopeDecl) : ((nameScope d).fields ++ (nameScope d).oneofs).Nodup := by
  have body := (nameScope_spec d).1
  simp only [ScopeNames.body, append_assoc] at body
  rw [← append_assoc] at body
  exact (nodup_append.1 body).1

/-- In a list without repetitions every entry is the first one of its kind. -/
lemma findIdx?_eq_iff {names : List String} (distinct : names.Nodup) :
    names.findIdx? (· == x) = some i ↔ names[i]? = some x := by
  rw [findIdx?_eq_some_iff_getElem, getElem?_eq_some_iff]
  constructor
  · rintro ⟨bound, here, -⟩
    exact ⟨bound, by simpa using here⟩
  · rintro ⟨bound, here⟩
    refine ⟨bound, by simpa using here, fun j before => ?_⟩
    simp only [Bool.not_eq_true, beq_eq_false_iff_ne, ne_eq]
    intro again
    have := distinct.getElem_inj_iff.1 (again.trans here.symm)
    omega

lemma findIdx?_congr {α : Type} {p q : α → Bool} {l : List α} (same : ∀ x ∈ l, p x = q x) :
    l.findIdx? p = l.findIdx? q := by
  induction l with
  | nil => rfl
  | cons x rest ih =>
    rw [findIdx?_cons, findIdx?_cons, same x (.head _), ih fun y later => same y (.tail _ later)]

/-- An attribute has one underscore in front. -/
lemma stored_front (member : name ∈ (nameScope d).stored) :
    name.toList.head? = some '_' ∧ name.toList[1]? ≠ some '_' := by
  -- Names are only ever made longer at their end.
  obtain ⟨source, used, own, given⟩ := exists_stored member
  obtain ⟨whole, c, rest, spelled, other⟩ := own.storageName
  obtain ⟨count, rfl⟩ := given.grown
  simp [whole.identifier_eq, padded, spelled, other]

/-- **Who stores its value under a name.**  The declaration that has the name without its underscore,
unless something is called like the attribute. -/
lemma Storable.stored_eq_iff (h : Storable x) :
    ((nameScope d).fieldStorage ++ (nameScope d).oneofStorage)[i]? = some ("_" ++ x)
      ↔ (¬ ∃ name ∈ d.fields ++ d.oneofs ++ d.nested, identifier name = "_" ++ x)
        ∧ (d.fields ++ d.oneofs).findIdx? (identifier · == x) = some i := by
  obtain ⟨used, stored, inUse⟩ := h.stored.mem_used_iff (d := d) (by simp)
  have same : ((nameScope d).fields ++ (nameScope d).oneofs).findIdx? ((identifier · == "_" ++ x) ∘ storageName)
      = ((nameScope d).fields ++ (nameScope d).oneofs).findIdx? (· == x) := by
    refine findIdx?_congr fun name member => ?_
    have whole := (isIdentifier_of_mem member).storageName.1.identifier_eq
    simp [whole, storageName_eq_iff h]
  rw [stored, assignAll_getElem?_iff h.stored.toPlain, inUse, findIdx?_map, same,
    findIdx?_eq_iff (nodup_names d), h.public_.nameScope_eq_iff]

end Missive.Naming
