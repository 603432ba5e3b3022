import Missive.Proofs.Message.Encoding

/-!
# What a message is written as

`Carries` lists what a message has to say: each present field that is in no oneof, the active member of
each oneof that is set, and each extension that is set, every one with its number and its encoding.

**Encoding is exact.**  A well-typed message is written as these encodings, each once and in strictly
ascending order of the numbers, followed by the bytes of its unknown fields.
-/

namespace Missive

open Plan Schema List Program

variable {R : Rules} {content : Value → Prop} {files : List FileDecl}

/-- What a message has to say: a number and the encoding of what stands under it. -/
inductive Carries (p : Program) (c : ClassPlan) (m : Content) : Int → Except Fault Bytes → Prop
  | field {slot : Nat} {f : FieldPlan} {v : Value} (declared : Declared.field slot f ∈ c.declared)
      (value : m.read p c slot = .ok v) (present : f.kind.isPresent v = true) :
      Carries p c m f.number (f.kind.encoding p f.number v)
  | member {slot : Nat} {o : OneofPlan} {member : MemberPlan} {first : Bool} {tag : CaseTag}
      {v : Value} {loose : List (String × Value)}
      (declared : Declared.member slot o member first ∈ c.declared)
      (value : m.read p c slot = .ok (.case tag v loose)) (active : tag.number = .int member.number) :
      Carries p c m member.number (member.kind.encoding p member.number v)
  | extension {e : Extension} {v : Value} (set : (e, v) ∈ m.extensions) :
      Carries p c m e.number (e.encoding p v)

/-! ## Slots -/

section slots

variable {p : Program} {I : Inside} {t : TypeId} {c : ClassPlan} {s : Message} {m : Content}

variable {slot : Nat} {v : Value} {o : OneofPlan} {member : MemberPlan} {first : Bool} {d : Declared} {number : Int}

/-- The bytes of the content of a message that holds any other one. -/
lemma AnyFits.exists_valueBytes (fits : AnyFits R I m.slots) (spelled : I.Spelled p R) :
    ∃ b, Any.valueBytes p (m.slots.map p.walk) = .ok (.bytes b) ∧ R.scalar .bytes (.bytes b) := by
  obtain ⟨url, data, content, slots, -, rest⟩ := fits
  rw [slots]
  rcases rest with ⟨b, rfl, fits, -⟩ | ⟨rfl, fits⟩
  · exact ⟨b, rfl, fits⟩
  · obtain ⟨bytes, spells, bytesFit⟩ := spelled.content content fits
    refine ⟨bytes, ?_, bytesFit⟩
    simp only [map_cons, map_nil, Any.valueBytes, Any.contentBytes]
    rw [spells.wireContent, spells.content]
    rfl

/-- A slot holds what its plan asks for, wherever it is kept. -/
lemma Content.Fits.exists_read (fits : m.Fits R I t c) (planned : Planned p.arena s c)
    (regular : p.arena.Regular) (spelled : I.Spelled p R)
    {i : Nat} {plan : SlotPlan} (found : c.slots[i]? = some plan) :
    ∃ v, m.read p c i = .ok v ∧ plan.Fits R I t i v ∧ walkedAt p c (m.slots.map p.walk) i = .ok (p.walk v) := by
  unfold Content.read walkedAt
  cases isAny : c.isAny with
  | false =>
    have inside : i < m.slots.length := by
      rw [fits.length isAny]
      exact (List.getElem?_eq_some_iff.1 found).1
    refine ⟨m.slot i, by rw [place_plain isAny], fits.slots isAny i plan found, ?_⟩
    rw [place_plain isAny]
    simp [Content.slot, getElem?_eq_getElem inside]
  | true =>
    obtain ⟨first, second, -⟩ := planned.place_any regular isAny
    obtain ⟨url, value, declared, -, -, -, urlKind, -, -, valueKind⟩ :=
      planned.any_declared regular isAny
    rw [planned.slots, declared] at found
    have anyFits := fits.any isAny
    rcases i with _ | _ | i
    · obtain rfl : SlotPlan.field url = plan := by simpa [slotsOf] using found
      obtain ⟨text, data, content, slots, urlFits, -⟩ := anyFits
      refine ⟨.text text, by rw [first]; simp [Content.slot, slots], ?_, by rw [first]; simp [slots]⟩
      rw [SlotPlan.Fits, urlKind]
      exact .inr ⟨_, rfl, urlFits⟩
    · obtain rfl : SlotPlan.field value = plan := by simpa [slotsOf] using found
      obtain ⟨b, valueBytes, bytesFit⟩ := anyFits.exists_valueBytes spelled
      refine ⟨.bytes b, by rw [second, valueBytes], ?_, by rw [second, valueBytes]; rfl⟩
      rw [SlotPlan.Fits, valueKind]
      exact .inr ⟨_, rfl, bytesFit⟩
    · simp [slotsOf] at found

/-! ## Visits -/

section

variable (planned : Planned p.arena s c) (regular : p.arena.Regular) (slots : List Walked)

include planned regular slots

/-- The bytes of the content are known once they were needed, which changes nothing that is visited
later. -/
lemma walkedAt_slotsAfter (visit : Visit) (i : Nat) :
    walkedAt p c (slotsAfter p c slots visit) i = walkedAt p c slots i := by
  have packed : ∀ index data, c.place index = .packed → Any.valueBytes p slots = .ok data →
      walkedAt p c (slots.set 1 (.plain data)) i = walkedAt p c slots i := by
    intro index data isPacked known
    have isAny : c.isAny = true := by
      by_contra plain
      rw [Bool.not_eq_true] at plain
      simp [place_plain plain] at isPacked
    obtain ⟨first, second, others⟩ := planned.place_any regular isAny
    rcases i with _ | _ | i
    · simp [walkedAt, first]
    · have present : data.isPresent = true := by
        unfold Any.valueBytes at known
        split at known
        · split at known
          · cases known
            assumption
          · obtain ⟨bytes, -, rest⟩ := bind_ok known
            cases rest
            rfl
        · cases known
      have shape : ∃ url old content rest, slots = url :: old :: content :: rest := by
        unfold Any.valueBytes at known
        split at known
        · exact ⟨_, _, _, _, rfl⟩
        · cases known
      obtain ⟨url, old, content, rest, rfl⟩ := shape
      simp only [walkedAt, zero_add, second, known]
      simp [Any.valueBytes, Part.source, present]
    · simp [walkedAt, others]
  unfold slotsAfter
  cases visit with
  | extensions => rfl
  | field index | oneof index =>
    dsimp only
    cases place : c.place index with
    | packed =>
      dsimp only
      cases known : Any.valueBytes p slots with
      | error => rfl
      | ok data => exact packed index data place known
    | slot | missing => rfl

lemma visitItems_slotsAfter (extensions : Extended Walked) (visit next : Visit) :
    visitItems p c (slotsAfter p c slots visit) extensions next = visitItems p c slots extensions next := by
  cases next <;> simp only [visitItems, slotItems, walkedAt_slotsAfter planned regular]

lemma visitAll_eq_flatMap (extensions : Extended Walked) (visits : List Visit) :
    visitAll p c extensions slots visits = visits.flatMap (visitItems p c slots extensions) := by
  induction visits generalizing slots with
  | nil => rfl
  | cons visit rest ih =>
    rw [visitAll, ih, flatMap_cons]
    congr 1
    exact flatMap_congr fun next _ =>
      visitItems_slotsAfter planned regular slots extensions visit next

end

/-! ## What is met of a field -/

def declaredItems (p : Program) (c : ClassPlan) (m : Content) (d : Declared) : List Item :=
  match m.read p c d.slot, d with
  | .ok v, .field _ f => fieldItems p f (p.walk v)
  | .ok (.case tag v _), .member _ _ member _ =>
    if tag.number = .int member.number then
      memberItems member v (p.content (p.walk v)) (p.wireContent (p.walk v))
    else []
  | _, _ => []

lemma declaredItems_field {f : FieldPlan} (read : m.read p c slot = .ok v) :
    declaredItems p c m (.field slot f) = fieldItems p f (p.walk v) := by
  unfold declaredItems
  rw [show (Declared.field slot f).slot = slot from rfl, read]

lemma declaredItems_unset (read : m.read p c slot = .ok .none) :
    declaredItems p c m (.member slot o member first) = [] := by
  unfold declaredItems
  rw [show (Declared.member slot o member first).slot = slot from rfl, read]

lemma declaredItems_case {tag : CaseTag} {loose : List (String × Value)}
    (read : m.read p c slot = .ok (.case tag v loose)) :
    declaredItems p c m (.member slot o member first) = if tag.number = .int member.number then
          memberItems member v (p.content (p.walk v)) (p.wireContent (p.walk v))
        else [] := by
  unfold declaredItems
  rw [show (Declared.member slot o member first).slot = slot from rfl, read]

/-- The items of the declared field with a number. -/
def ownItems (p : Program) (c : ClassPlan) (m : Content) (number : Int) : List Item :=
  ((c.declared.find? (·.number == number)).map (declaredItems p c m)).getD []

lemma ownItems_eq (planned : Planned p.arena s c) (resolved : s.Resolved) (declared : d ∈ c.declared) :
    ownItems p c m d.number = declaredItems p c m d := by
  unfold ownItems
  obtain ⟨d', found⟩ := Option.isSome_iff_exists.1
    (find?_isSome (p := (·.number == d.number)).2 ⟨d, declared, beq_self_eq_true d.number⟩)
  obtain rfl : d' = d := planned.declared_ext resolved (mem_of_find?_eq_some found) declared
    (by simpa using find?_some found)
  rw [found, Option.map_some, Option.getD_some]

/-- The items of a case that was made for its member, within bounds. -/
lemma caseItems_member (found : o.member? number = some member) (bounds : Option (Int × Int)) (tag : CaseTag)
    (isNumber : tag.number = .int number) (x : Value) :
    caseItems p o bounds (p.walk (.case tag x [])) = if inBounds bounds number then
          memberItems member x (p.content (p.walk x)) (p.wireContent (p.walk x))
        else [] := by
  have within : withinBounds bounds tag.number = .ok (inBounds bounds number) := by
    rw [isNumber]
    cases bounds with
    | none => rfl
    | some => rfl
  rw [walk_case, caseItems, if_neg (by simp [Value.replaces, Value.loose]), boundedItems, within, source_walk]
  cases inBounds bounds number with
  | false => rfl
  | true => simp [isNumber, found]

/-- **The walk over a message is faithful**: a visit meets what its field, or the active member of its
oneof, has to say. -/
lemma Content.Fits.faithful (fits : m.Fits R I t c) (planned : Planned p.arena s c)
    (resolved : s.Resolved) (regular : p.arena.Regular)
    (spelled : I.Spelled p R)
    (extensions : Extended Walked) :
    Faithful s (fun number => slotIndex s (.field number)) (fun index => slotIndex s (.oneof index))
      (visitItems p c (m.slots.map p.walk) extensions) (ownItems p c m) where
  field := by
    intro f inside plain
    obtain ⟨plan, declared, number⟩ := planned.exists_field inside plain
    have slot := planned.slot_of_declared resolved declared
    obtain ⟨v, read, -, walked⟩ := fits.exists_read planned regular spelled slot
    have own := ownItems_eq (p := p) (m := m) planned resolved declared
    simp only [Declared.number, number] at own
    simp only [Declared.slot, Declared.content] at read slot walked
    rw [own, declaredItems_field read]
    simp only [visitItems, slotItems, walked, slot]
  oneof := by
    intro o isOneof
    obtain ⟨plan, oneof, slot, members⟩ := planned.exists_oneof resolved isOneof
    obtain ⟨v, read, caseFits, walked⟩ := fits.exists_read planned regular spelled slot
    have visited : ∀ bounds, visitItems p c (m.slots.map p.walk) extensions
        (.oneof (slotIndex s (.oneof o.index)) bounds) = caseItems p plan bounds (p.walk v) := by
      intro bounds
      simp only [visitItems, slotItems, walked, slot]
    rcases caseFits with rfl | ⟨number, member, origin, x, rfl, found, -⟩
    · -- Nothing is set, so any member will do.
      have own : ∀ number ∈ o.numbers, ownItems p c m number = [] := by
        intro number isNumber
        obtain ⟨f, inside, rfl⟩ := mem_numbers.1 isNumber
        obtain ⟨member, first, declared, found⟩ := members f inside
        have own := ownItems_eq (p := p) (m := m) planned resolved declared
        simp only [Declared.number, (member?_eq_some found).2] at own
        rw [own, declaredItems_unset read]
      obtain ⟨g, inside⟩ := exists_mem_of_ne_nil _ (resolved.inhabited o (mem_oneofs isOneof).1)
      refine ⟨g.number, mem_numbers.2 ⟨g, inside, rfl⟩, fun bounds => ?_, fun number isNumber _ =>
        own number isNumber⟩
      rw [visited, own g.number (mem_numbers.2 ⟨g, inside, rfl⟩)]
      simp [caseItems]
    · obtain ⟨memberIn, memberNumber⟩ := member?_eq_some found
      obtain ⟨f, inside, number', -⟩ := oneof.exists_field memberIn
      have same : f.number = number := number'.symm.trans memberNumber
      have ownOf : ∀ g ∈ o.members, ownItems p c m g.number = if number = g.number then
              memberItems member x (p.content (p.walk x)) (p.wireContent (p.walk x))
            else [] := by
        intro g inside
        obtain ⟨member', first, declared, found'⟩ := members g inside
        have own := ownItems_eq (p := p) (m := m) planned resolved declared
        simp only [Declared.number, (member?_eq_some found').2] at own
        rw [own, declaredItems_case read, (member?_eq_some found').2]
        by_cases isActive : number = g.number
        · rw [if_pos (congrArg Scalar.int isActive), if_pos isActive]
          rw [← isActive] at found'
          rw [Option.some.inj (found.symm.trans found')]
        · rw [if_neg (by simpa using isActive), if_neg isActive]
      refine ⟨number, mem_numbers.2 ⟨f, inside, same⟩, fun bounds => ?_, fun n isNumber other => ?_⟩
      · rw [visited, caseItems_member found bounds _ rfl, ← same, ownOf f inside, if_pos same.symm]
      · obtain ⟨g, inside, rfl⟩ := mem_numbers.1 isNumber
        rw [ownOf g inside, if_neg other.symm]

/-! ## Chunks -/

/-- The extensions of a message in a range, by number. -/
def rangeExtensions (p : Program) (m : Content) (start stop : Int) : List (Extension × Walked) :=
  sortBy (fun a b => decide (a.1.number ≤ b.1.number)) <|
    (m.extensions.map fun x => (x.1, p.walk x.2)).filter fun (e, _) =>
      start ≤ e.number && e.number < stop

/-- What a message has to say at a mark, as numbers and items. -/
def markChunks (p : Program) (c : ClassPlan) (m : Content) : Mark → List (Int × List Item)
  | .field f =>
    if (ownItems p c m f.number).isEmpty then [] else [(f.number, ownItems p c m f.number)]
  | .range start stop =>
    (rangeExtensions p m start stop).map fun x => (x.1.number, extensionItems p x.1 x.2)

/-- All that a message has to say, in order. -/
def chunks (p : Program) (c : ClassPlan) (s : Message) (m : Content) : List (Int × List Item) :=
  (marks s).flatMap (markChunks p c m)

lemma mem_rangeExtensions {start stop : Int} {e : Extension} {w : Walked} :
    (e, w) ∈ rangeExtensions p m start stop
      ↔ start ≤ e.number ∧ e.number < stop ∧ ∃ v, (e, v) ∈ m.extensions ∧ w = p.walk v := by
  unfold rangeExtensions
  rw [mem_sortBy]
  simp only [mem_filter, mem_map, Prod.mk.injEq, Prod.exists, Bool.and_eq_true, decide_eq_true_eq]
  constructor
  · rintro ⟨⟨e', v, set, rfl, rfl⟩, low, high⟩
    exact ⟨low, high, v, set, rfl⟩
  · rintro ⟨low, high, v, set, rfl⟩
    exact ⟨⟨e, v, set, rfl, rfl⟩, low, high⟩

lemma rangeExtensions_pairwise (distinct : (m.extensions.map (·.1.number)).Nodup) (start stop : Int) :
    (rangeExtensions p m start stop).Pairwise fun a b => a.1.number < b.1.number := by
  refine pairwise_lt_sortBy (fun x : Extension × Walked => x.1.number) ?_
  have all : ((m.extensions.map fun x => (x.1, p.walk x.2)).map fun x => x.1.number).Nodup := by
    simpa [Function.comp_def] using distinct
  exact all.sublist (filter_sublist.map _)

lemma markChunks_bounds {mark : Mark} {x : Int × List Item} (inside : x ∈ markChunks p c m mark) :
    mark.start ≤ x.1 ∧ x.1 < mark.stop := by
  cases mark with
  | field =>
    simp only [markChunks] at inside
    split at inside
    · simp at inside
    · rw [mem_singleton] at inside
      rw [inside]
      exact ⟨Int.le_refl _, Int.lt_succ _⟩
  | range =>
    obtain ⟨⟨e, w⟩, there, rfl⟩ := mem_map.1 inside
    obtain ⟨low, high, -⟩ := mem_rangeExtensions.1 there
    exact ⟨low, high⟩

/-- **Chunks ascend.** -/
lemma chunks_pairwise (resolved : s.Resolved) (distinct : (m.extensions.map (·.1.number)).Nodup) :
    (chunks p c s m).Pairwise fun a b => a.1 < b.1 := by
  refine pairwise_flatMap.2 ⟨fun mark _ => ?_, (marks_pairwise resolved).imp ?_⟩
  · cases mark with
    | field =>
      simp only [markChunks]
      split <;> simp
    | range start stop => exact pairwise_map.2 (rangeExtensions_pairwise distinct start stop)
  · intro a b apart x inA y inB
    have := markChunks_bounds inA
    have := markChunks_bounds inB
    omega

/-- What stands in the chunks: the items of a declared field or of an extension. -/
lemma mem_chunks (fits : m.Fits R I t c) (planned : Planned p.arena s c) (resolved : s.Resolved) {items : List Item} :
    (number, items) ∈ chunks p c s m
      ↔ (∃ d ∈ c.declared, d.number = number ∧ items = declaredItems p c m d ∧ items ≠ [])
        ∨ ∃ e v, (e, v) ∈ m.extensions ∧ number = e.number ∧ items = extensionItems p e (p.walk v) := by
  unfold chunks
  rw [mem_flatMap]
  constructor
  · rintro ⟨mark, isMark, inside⟩
    cases mark with
    | field f =>
      left
      have numbers : f.number ∈ c.declared.map Declared.number := by
        rw [planned.numbers_eq]
        exact mem_map_of_mem (by simpa [mem_marks] using isMark)
      obtain ⟨d, declared, same⟩ := mem_map.1 numbers
      have own := ownItems_eq (p := p) (m := m) planned resolved declared
      rw [same] at own
      simp only [markChunks] at inside
      split at inside
      · simp at inside
      · rename_i some
        obtain ⟨rfl, rfl⟩ : number = f.number ∧ items = ownItems p c m f.number := by
          simpa using inside
        exact ⟨d, declared, same, own, by simpa using some⟩
    | range =>
      obtain ⟨⟨e, w⟩, there, same⟩ := mem_map.1 inside
      obtain ⟨-, -, v, set, rfl⟩ := mem_rangeExtensions.1 there
      obtain ⟨rfl, rfl⟩ := Prod.mk.inj same
      exact .inr ⟨e, v, set, rfl, rfl⟩
  · rintro (⟨d, declared, rfl, rfl, some⟩ | ⟨e, v, set, rfl, rfl⟩)
    · have numbers : d.number ∈ s.fields.map (·.number) := by
        rw [← planned.numbers_eq]
        exact mem_map_of_mem declared
      obtain ⟨f, inside, same⟩ := mem_map.1 numbers
      refine ⟨.field f, mem_marks.2 (.inl ⟨f, inside, rfl⟩), ?_⟩
      have own := ownItems_eq (p := p) (m := m) planned resolved declared
      rw [markChunks, same, own, if_neg (by simpa using some)]
      exact mem_singleton.2 rfl
    · obtain ⟨-, range, -, -⟩ := fits.extensions _ set
      rw [planned.ranges] at range
      obtain ⟨⟨start, stop⟩, isRange, inside⟩ := any_eq_true.1 range
      have inside : start ≤ e.number ∧ e.number < stop := by simpa using inside
      refine ⟨.range start stop, mem_marks.2 (.inr ⟨_, isRange, rfl⟩), mem_map.2 ?_⟩
      exact ⟨(e, p.walk v), mem_rangeExtensions.2 ⟨inside.1, inside.2, v, set, rfl⟩, rfl⟩

/-- A walk meets the chunks, apart from the marks of ranges, which are not written. -/
lemma writeAll_met (mark : Mark) :
    Item.writeAll (mark.met (visitItems p c (m.slots.map p.walk) (.usual (m.extensions.map fun x => (x.1, p.walk x.2))))
        (ownItems p c m))
      = Item.writeAll ((markChunks p c m mark).flatMap (·.2)) := by
  cases mark with
  | field =>
    simp only [Mark.met, markChunks]
    split
    · rename_i empty
      rw [List.isEmpty_iff.1 empty]
      rfl
    · simp
  | range =>
    unfold Mark.met markChunks
    rw [flatMap_map]
    rfl

lemma writeAll_marks (ms : List Mark) :
    Item.writeAll (ms.flatMap (Mark.met
        (visitItems p c (m.slots.map p.walk) (.usual (m.extensions.map fun x => (x.1, p.walk x.2))))
        (ownItems p c m)))
      = Item.writeAll ((ms.flatMap (markChunks p c m)).flatMap (·.2)) := by
  induction ms with
  | nil => rfl
  | cons mark rest ih =>
    rw [flatMap_cons, Item.writeAll_append, writeAll_met, ih, flatMap_cons, flatMap_append, Item.writeAll_append]

/-- The items of a well-typed message that are written: its chunks and its unknown fields. -/
lemma Content.Fits.writeAll_content (fits : m.Fits R I t c) (found : p.plan? t = some c)
    (planned : Planned p.arena s c) (resolved : s.Resolved) (regular : p.arena.Regular)
    (spelled : I.Spelled p R) :
    Item.writeAll (p.content (p.walk m.value))
      = Item.writeAll ((chunks p c s m).flatMap (·.2)) ++ ⟨m.head.unknown, none⟩ := by
  have items : p.content (p.walk m.value)
      = visitAll p c (.usual (m.extensions.map fun x => (x.1, p.walk x.2))) (m.slots.map p.walk) c.visits
        ++ (Unknown.mk m.head.unknown).items := by
    rw [Content.value, fits.plain]
    show p.summarizeItems m.head (partList _ _) (partExtensions _ _) (partLoose _ []) = _
    rw [partList_eq_map, partExtensions_eq_map]
    simp only [Program.summarizeItems, partLoose, List.lookup, Option.isSome_none, Bool.false_eq_true,
      if_false, fits.type, found, unknownItems, Extended.ofLoose, fits.whole]
    rfl
  have unknown : Item.writeAll (Unknown.mk m.head.unknown).items = ⟨m.head.unknown, none⟩ := by
    cases m.head.unknown with
    | nil => rfl
    | cons => exact Item.spells_singleton.2 rfl
  rw [items, Item.writeAll_append, unknown, visitAll_eq_flatMap planned regular, planned.visits,
    flatMap_visits resolved (fits.faithful planned resolved regular spelled _), writeAll_marks]
  rfl

section

variable (fits : m.Fits R I t c) (planned : Planned p.arena s c) (resolved : s.Resolved) (regular : p.arena.Regular)
  (encodable : R.Encodable) (spelled : I.Spelled p R)

include fits planned resolved regular encodable spelled

/-- What a declared field has to say is what its items spell. -/
lemma Content.Fits.declared_spells (declared : d ∈ c.declared) (some : declaredItems p c m d ≠ []) :
    ∃ bytes, Item.Spells (declaredItems p c m d) bytes ∧ Carries p c m d.number (.ok bytes) := by
  cases d with
  | field slot f =>
    obtain ⟨v, read, valueFits, -⟩ := fits.exists_read planned regular spelled
      (i := slot) (planned.slot_of_declared resolved declared)
    rw [declaredItems_field read] at some ⊢
    have present : f.kind.isPresent v = true := by
      by_contra absent
      exact some (fieldItems_absent (by simpa using absent))
    obtain ⟨bytes, encoded, spells⟩ :=
      exists_field encodable spelled (planned.field_isCoded regular declared) valueFits present
    exact ⟨bytes, spells, encoded ▸ .field declared read present⟩
  | member slot o member =>
    obtain ⟨v, read, valueFits, -⟩ := fits.exists_read planned regular spelled
      (i := slot) (planned.slot_of_declared resolved declared)
    rcases valueFits with rfl | ⟨number, member', origin, x, rfl, found, memberFits⟩
    · exact absurd (declaredItems_unset read) some
    · rw [declaredItems_case read] at some ⊢
      have active : number = member.number := by
        by_contra other
        exact some (if_neg (by simpa using other))
      obtain ⟨-, -, -, -, found'⟩ := planned.oneof_of_member declared
      rw [active] at found
      cases found.symm.trans found'
      rw [if_pos (congrArg Scalar.int active)]
      obtain ⟨bytes, encoded, spells⟩ := exists_member encodable spelled memberFits
      exact ⟨bytes, spells, encoded ▸ .member declared read (congrArg Scalar.int active)⟩

lemma Content.Fits.chunk_spells {items : List Item} (inside : (number, items) ∈ chunks p c s m) :
    ∃ bytes, Item.Spells items bytes ∧ Carries p c m number (.ok bytes) := by
  rcases (mem_chunks fits planned resolved).1 inside with ⟨d, declared, rfl, rfl, some⟩ | ⟨e, v, set, rfl, rfl⟩
  · exact fits.declared_spells planned resolved regular encodable spelled declared some
  · obtain ⟨-, -, -, extensionFits⟩ := fits.extensions _ set
    obtain ⟨bytes, encoded, spells⟩ := exists_extension encodable spelled extensionFits
    exact ⟨bytes, spells, encoded ▸ .extension set⟩

/-- What a message carries is what its chunks spell. -/
lemma Content.Fits.carries_iff {result : Except Fault Bytes} :
    Carries p c m number result ↔ ∃ items bytes, (number, items) ∈ chunks p c s m ∧ Item.Spells items bytes
        ∧ result = .ok bytes := by
  constructor
  · intro carries
    cases carries with
    | @field slot f v declared read present =>
      obtain ⟨v', read', valueFits, -⟩ := fits.exists_read planned regular spelled
        (planned.slot_of_declared resolved declared)
      cases read.symm.trans read'
      obtain ⟨bytes, encoded, spells⟩ :=
        exists_field encodable spelled (planned.field_isCoded regular declared) valueFits present
      refine ⟨_, bytes, (mem_chunks fits planned resolved).2 (.inl ⟨_, declared, rfl, ?_, ?_⟩), spells, encoded⟩
      · exact (declaredItems_field read).symm
      · exact fieldItems_present valueFits present
    | @member slot o member first tag x loose declared read active =>
      obtain ⟨v', read', valueFits, -⟩ := fits.exists_read planned regular spelled
        (planned.slot_of_declared resolved declared)
      have same := Except.ok.inj (read'.symm.trans read)
      rcases valueFits with rfl | ⟨number, member', origin, y, rfl, found, memberFits⟩
      · cases same
      · obtain ⟨rfl, rfl, rfl⟩ := Value.case.inj same
        have active : number = member.number := by simpa using active
        obtain ⟨-, -, -, -, found'⟩ := planned.oneof_of_member declared
        rw [active] at found
        cases found.symm.trans found'
        obtain ⟨bytes, encoded, spells⟩ := exists_member encodable spelled memberFits
        refine ⟨_, bytes, (mem_chunks fits planned resolved).2 (.inl ⟨_, declared, rfl, ?_, ?_⟩), spells, encoded⟩
        · rw [declaredItems_case read, if_pos (congrArg Scalar.int active)]
        · unfold memberItems
          split <;> simp
    | @extension e v set =>
      obtain ⟨-, -, -, extensionFits⟩ := fits.extensions _ set
      obtain ⟨bytes, encoded, spells⟩ := exists_extension encodable spelled extensionFits
      exact ⟨_, bytes, (mem_chunks fits planned resolved).2 (.inr ⟨e, v, set, rfl, rfl⟩), spells, encoded⟩
  · rintro ⟨items, bytes, inside, spells, rfl⟩
    obtain ⟨bytes', spells', carries⟩ := fits.chunk_spells planned resolved regular encodable spelled inside
    obtain rfl : bytes' = bytes := congrArg Written.bytes (spells'.symm.trans spells)
    exact carries

end

lemma spells_flatMap {parts : List (Int × List Item)} (each : ∀ x ∈ parts, ∃ bytes, Item.Spells x.2 bytes) :
    Item.Spells (parts.flatMap (·.2)) (parts.flatMap fun x => (Item.writeAll x.2).bytes) := by
  induction parts with
  | nil => rfl
  | cons x rest ih =>
    obtain ⟨bytes, spells⟩ := each x (.head _)
    rw [flatMap_cons, flatMap_cons]
    refine Item.Spells.append ?_ (ih fun y member => each y (.tail _ member))
    rw [Item.Spells, spells]

/-- **Encoding is exact**, for a message whose parts can be written. -/
lemma Content.Fits.exists_encodings (fits : m.Fits R I t c) (found : p.plan? t = some c)
    (planned : Planned p.arena s c) (resolved : s.Resolved) (regular : p.arena.Regular)
    (encodable : R.Encodable) (spelled : I.Spelled p R) :
    ∃ encodings : List (Int × Bytes), encodings.Pairwise (fun a b => a.1 < b.1)
      ∧ (∀ number result, Carries p c m number result ↔ ∃ bytes, result = .ok bytes ∧ (number, bytes) ∈ encodings)
      ∧ p.Spells m.value (encodings.flatMap (·.2) ++ m.head.unknown) := by
  have carried : ∀ {number result}, Carries p c m number result ↔ _ :=
    fits.carries_iff planned resolved regular encodable spelled
  -- Nothing is among the chunks that the message does not carry.
  have spelt : ∀ x ∈ chunks p c s m, ∃ bytes, Item.Spells x.2 bytes := by
    rintro ⟨number, items⟩ inside
    obtain ⟨bytes, spells, -⟩ := fits.chunk_spells planned resolved regular encodable spelled inside
    exact ⟨bytes, spells⟩
  refine ⟨(chunks p c s m).map fun x => (x.1, (Item.writeAll x.2).bytes),
    pairwise_map.2 (chunks_pairwise resolved fits.distinct), fun number result => ?_, ?_, ?_, rfl⟩
  · rw [carried]
    constructor
    · rintro ⟨items, bytes, inside, spells, rfl⟩
      refine ⟨bytes, rfl, mem_map.2 ⟨_, inside, ?_⟩⟩
      rw [spells]
    · rintro ⟨bytes, rfl, inside⟩
      obtain ⟨⟨number', items⟩, there, same⟩ := mem_map.1 inside
      obtain ⟨rfl, rfl⟩ := Prod.mk.inj same
      obtain ⟨bytes, spells⟩ := spelt _ there
      exact ⟨items, _, there, by rw [Item.Spells, spells], rfl⟩
  · rw [Item.Spells, fits.writeAll_content found planned resolved regular spelled,
      spells_flatMap spelt, flatMap_map, Written.append_ok]
  · rw [Content.value, fits.plain]
    rfl

end slots

/-! ## Well-typed messages -/

/-- The scalars that a field type writes: its own, and for single precision all numbers that can be
rounded to it. -/
def FieldType.Takes (t : FieldType) (s : Scalar) : Prop :=
  t.Holds s ∨ t = .float ∧ ∃ x, s = .float x ∧ x.toSingle?.isSome = true

/-- What writing asks for. -/
def Rules.writable : Rules where
  scalar := FieldType.Takes

lemma Rules.encodable_of_holds (holds : ∀ {type s}, R.scalar type s → type.Holds s) : R.Encodable := by
  intro type s scalar
  obtain ⟨bytes, encoded, some, -⟩ := FieldType.exists_encode (holds scalar)
  exact ⟨bytes, encoded, some⟩

lemma Rules.encodable_writable : Rules.writable.Encodable := by
  rintro type s (holds | ⟨rfl, x, rfl, narrow⟩)
  · obtain ⟨bytes, encoded, some, -⟩ := FieldType.exists_encode holds
    exact ⟨bytes, encoded, some⟩
  · obtain ⟨bits, narrow⟩ := Option.isSome_iff_exists.1 narrow
    refine ⟨Bytes.ofNat 4 bits, ?_, ?_⟩
    · have payload : FieldType.float.encodePayload (.scalar (.float x)) = .ok (.bytes (Bytes.ofNat 4 bits)) := by
        simp only [FieldType.encodePayload, Value.toFloat, bind, Except.bind, narrow]
        rfl
      simp only [FieldType.encode, payload]
      rfl
    · exact ne_nil_of_length_pos (by rw [Bytes.length_ofNat]; decide)

/-- The messages that a message may hold as any other one, which may hold others in turn. -/
def Contents (p : Program) (R : Rules) : Nat → Value → Prop
  | 0, _ => False
  | k + 1, v => ∃ n t, Typed p R (Contents p R k) n t v

section typed

variable {options : Plan.Options} {p : Program}

variable {n : Nat} {v : Value}

lemma spelled_inside (nested : ∀ k < n, ∀ t v, Typed p R content k t v → ∃ bytes, p.Spells v bytes)
    (contents : ∀ v, content v → ∃ bytes, p.Spells v bytes ∧ R.scalar .bytes (.bytes bytes)) :
    (inside p R content n).Spelled p R where
  nested := by
    rintro t v ⟨k, rfl, typed⟩
    exact nested k (by omega) t v typed
  entry := by
    rintro t v ⟨k, rfl, typed⟩
    exact nested k (by omega) t v typed
  content := contents

/-- Well-typed messages spell something, if the contents they hold do. -/
lemma Typed.exists_spells (built : Program.build files options = .ok p) (regular : p.arena.Regular)
    (encodable : R.Encodable) (contents : ∀ v, content v → ∃ bytes, p.Spells v bytes ∧ R.scalar .bytes (.bytes bytes))
    {t : TypeId} (typed : Typed p R content n t v) : ∃ bytes, p.Spells v bytes := by
  induction n using Nat.strong_induction_on generalizing t v with
  | _ n ih =>
    rw [typed_eq] at typed
    obtain ⟨c, m, found, rfl, fits⟩ := typed
    obtain ⟨rfl, s, resolved, planned⟩ := planned_of_build built found
    have spelled := spelled_inside (fun k less _ _ => ih k less) contents
    obtain ⟨encodings, -, -, spells⟩ :=
      fits.exists_encodings found planned resolved regular encodable spelled
    exact ⟨_, spells⟩

lemma Contents.exists_spells (built : Program.build files options = .ok p) (regular : p.arena.Regular) {k : Nat}
    (h : Contents p .writable k v) :
    ∃ bytes, p.Spells v bytes ∧ Rules.writable.scalar .bytes (.bytes bytes) := by
  induction k generalizing v with
  | zero => exact h.elim
  | succ k ih =>
    obtain ⟨n, t, typed⟩ := h
    obtain ⟨bytes, spells⟩ := typed.exists_spells built regular Rules.encodable_writable fun _ => ih
    exact ⟨bytes, spells, .inl rfl⟩

/-- **Encode order and exactness.**  However the members of its oneofs lie between its other fields and
its extension ranges, a well-typed message is written as what it carries, each once and in strictly
ascending order of numbers, followed by its unknown fields. -/
theorem serialize_ascending (built : Program.build files options = .ok p) (regular : p.arena.Regular)
    {depth levels : Nat} {t : TypeId} {c : ClassPlan} {m : Content} (found : p.plan? t = some c)
    (typed : Typed p .writable (Contents p .writable depth) levels t m.value) :
    ∃ s, p.arena.message? t = some s ∧ c.declared.map (·.number) = s.fields.map (·.number)
      ∧ ∃ encodings : List (Int × Bytes), encodings.Pairwise (fun a b => a.1 < b.1)
        ∧ (∀ number result, Carries p c m number result ↔ ∃ bytes, result = .ok bytes ∧ (number, bytes) ∈ encodings)
        ∧ p.serialize m.value = .ok (encodings.flatMap (·.2) ++ m.head.unknown) := by
  obtain ⟨rfl, s, resolved, planned⟩ := planned_of_build built found
  refine ⟨s, planned.found, planned.numbers_eq, ?_⟩
  have contents : ∀ v, Contents p .writable depth v → ∃ bytes, p.Spells v bytes ∧ _ :=
    fun _ => Contents.exists_spells built regular
  have spelled : (inside p .writable (Contents p .writable depth) levels).Spelled p .writable :=
    spelled_inside (fun _ _ _ _ below =>
      below.exists_spells built regular Rules.encodable_writable contents) contents
  rw [typed_eq] at typed
  obtain ⟨c', m', found', same, fits⟩ := typed
  cases found'.symm.trans found
  obtain rfl : m = m' := Content.value_injective same
  obtain ⟨encodings, ascending, carried, spells⟩ := fits.exists_encodings found planned resolved
    regular Rules.encodable_writable spelled
  exact ⟨encodings, ascending, carried, spells.serialize⟩

end typed

/-! ## A sample -/

/-- The program of some files, or the one without any. -/
def Program.ofFiles (files : List FileDecl) : Program :=
  match build files {} with
  | .ok p => p
  | .error _ => empty

lemma Program.build_ofFiles (able : (build files {}).isOk = true) : build files {} = .ok (ofFiles files) := by
  unfold ofFiles
  cases built : build files {} with
  | ok => rfl
  | error =>
    rw [built] at able
    exact absurd able Bool.false_ne_true

/-- A message that can hold another one of its class in a oneof, and can be extended. -/
def sampleFiles : List FileDecl :=
  [{ name := "a.proto"
     messages :=
      [{ name := "M"
         fields := [{ name := "d", number := 4, type := .message, typeName := ".M", oneof := some 0 }]
         oneofs := ["o"]
         extensionRanges := [(10, 20)] }] }]

def sampleProgram : Program := .ofFiles sampleFiles

lemma build_sample : Program.build sampleFiles {} = .ok sampleProgram :=
  build_ofFiles (by decide +kernel)

def samplePlan : ClassPlan := (sampleProgram.plan? 0).get (by decide +kernel)

lemma plan_sample : sampleProgram.plan? 0 = some samplePlan := (Option.some_get _).symm

def sampleRef : ClassRef := ⟨0, "M", ["M"], .type 0, .type 0⟩

def sampleOneof : OneofPlan where
  name := "o"
  declared := "o"
  className := "OneofO"
  storageName := "_o"
  members := [⟨"d", 4, .message false sampleRef sampleRef⟩]

lemma slots_sample : samplePlan.isAny = false ∧ samplePlan.slots = [.oneof sampleOneof] := by decide +kernel

def sampleExtension : Extension := { number := 10, name := "e", extended := 0, type := .int32 }

/-- A message with nothing set. -/
def sampleInner : Content where
  head := { type := 0 }
  slots := [.none]
  extensions := []

/-- A message with all set that can be, and an unknown field. -/
def sampleMessage : Content where
  head := { type := 0, unknown := [0x78, 1] }
  slots := [.case { owner := 0, slot := 0, number := .int 4 } sampleInner.value []]
  extensions := [(sampleExtension, .int 5)]

lemma typed_sampleInner (n : Nat) (unknown : R.unknown n 0 []) :
    Typed sampleProgram R content n 0 sampleInner.value := by
  rw [typed_eq]
  exact ⟨samplePlan, sampleInner, plan_sample, rfl, Content.fits_single ⟨rfl, rfl, unknown⟩ rfl slots_sample rfl
    (.inl rfl) nodup_nil fun x inside => absurd inside not_mem_nil⟩

lemma typed_sample (n : Nat) (scalar : R.scalar .int32 (.int 5)) (message : R.message sampleInner.value)
    (extension : R.extension 0 sampleExtension (.int 5)) (unknown : R.unknown n 0 [])
    (unknown' : R.unknown (n + 1) 0 [0x78, 1]) : Typed sampleProgram R content (n + 1) 0 sampleMessage.value := by
  have inner : Typed sampleProgram R content n 0 sampleInner.value := typed_sampleInner n unknown
  rw [typed_eq]
  refine ⟨samplePlan, sampleMessage, plan_sample, rfl, Content.fits_single ⟨rfl, rfl, unknown'⟩ rfl slots_sample rfl
    (.inr ⟨4, _, none, sampleInner.value, rfl, rfl, ⟨n, rfl, inner⟩, fun _ => message⟩) (nodup_singleton _) ?_⟩
  intro x inside
  obtain rfl := mem_singleton.1 inside
  exact ⟨rfl, by decide +kernel, extension, _, rfl, scalar⟩

theorem serialize_ascending_sample :
    sampleProgram.serialize sampleMessage.value = .ok [0x22, 0, 0x50, 5, 0x78, 1]
      ∧ ∃ encodings : List (Int × Bytes), encodings.Pairwise (fun a b => a.1 < b.1)
        ∧ (∀ number result, Carries sampleProgram samplePlan sampleMessage number result
            ↔ ∃ bytes, result = .ok bytes ∧ (number, bytes) ∈ encodings)
        ∧ sampleProgram.serialize sampleMessage.value = .ok (encodings.flatMap (·.2) ++ [0x78, 1]) := by
  have holds : FieldType.int32.Holds (.int 5) := ⟨_, _, rfl, by decide, by decide⟩
  have typed : Typed sampleProgram .writable (Contents sampleProgram .writable 0) 1 0
      sampleMessage.value := typed_sample 0 (.inl holds) trivial trivial trivial trivial
  obtain ⟨-, -, -, exactly⟩ := serialize_ascending build_sample (by decide +kernel) plan_sample typed
  exact ⟨by decide +kernel, exactly⟩

/-- A message that holds any other one, but not with its two standard fields. -/
def oddAnyFiles : List FileDecl :=
  [{ name := "google/protobuf/any.proto"
     package := "google.protobuf"
     dialect := "proto3"
     messages := [{ name := "Any", fields := [{ name := "foo", number := 1, type := .int32 }] }] }]

/-- Without its two standard fields, a message that holds any other one cannot be written, not even a
new one. -/
theorem serialize_oddAny :
    ∃ p v, Program.build oddAnyFiles {} = .ok p ∧ p.fresh 0 = .ok v ∧ p.serialize v = .error .noAttribute := by
  have noFault : ((Program.ofFiles oddAnyFiles).plan? 0).bind (·.birthFault?) = none := by
    decide +kernel
  exact ⟨.ofFiles oddAnyFiles, _, build_ofFiles (by decide +kernel), by rw [Program.fresh, noFault], by decide +kernel⟩

end Missive
