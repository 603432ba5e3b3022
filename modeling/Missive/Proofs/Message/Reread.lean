import Missive.Proofs.Message.Equivalence
import Missive.Proofs.Message.Promote
import Missive.Store.Merge

/-!
# Reading again

What was read from some data is written again, and what is written is read.  `Stable` follows a message
without extensions and without not-a-numbers.  Here are two ways to go further.

**Acceptance.**  With not-a-numbers in it, a message is not equal to what is read of it.  Still it is read:
`parse_serialize_parse`.  A message in a map may lie one level below its entry, without any data of its own.
Where the entry is on the last level that is read, the message is written and then too deep.

**Extensions.**  With a table of extensions, those that are set are set again, to equal values:
`parse_serialize_extended`.  An extension that was read from an empty run of items is set, to no items.
Nothing is written of it, so that it is not set any more.
-/

namespace Missive

open Plan Schema List Program

variable {p : Program} {table : Option ExtensionTable} {files : List FileDecl} {options : Plan.Options}
  {t : TypeId} {data : Bytes} {m : Content}

/-! ## What can be read again -/

/-- What is asked of a message that was read, to write it and read it again: the lengths of its payloads can
be written. -/
def Rules.sized (p : Program) : Rules := { Rules.bounded p with scalar := fun _ s => s.size < word64 }

/-- What is asked of a message with extensions, to write it and read an equal one: it is within bounds, and
no extension is set to an empty list. -/
def Rules.filled (p : Program) : Rules := { Rules.bounded p with extension := fun _ _ v => v ≠ .list [] }

/-- What can be read again, with or without not-a-numbers. -/
def Rules.reread (numeric : Prop) (p : Program) (table : Option ExtensionTable) : Rules :=
  { Rules.readable p table with
    scalar := fun type s => type.Holds s ∧ (numeric → s.isNaN = false) ∧ s.size < word64
    unknown := fun levels t data => ∃ numbers, WireFields levels numbers data ∧ ∀ n ∈ numbers, p.Unheard table t n }

lemma Rules.legible_reread {numeric : Prop} : (Rules.reread numeric p table).Legible p table where
  scalar := fun holds => ⟨holds.1, holds.2.2⟩
  default := fun scalar => by
    have legible : (Rules.readable p table).Legible p table := Rules.legible_readable
    obtain ⟨holds, number, small⟩ := legible.default scalar
    exact ⟨holds, fun _ => number, small⟩
  packed := Iff.rfl
  message := Iff.rfl
  entry := Iff.rfl
  extension := Iff.rfl
  unknown := id

lemma Rules.join_sized : (Rules.parsed p none).Join (.sized p) 1 (.reread False p none) where
  scalar := fun _ _ holds small => ⟨holds, False.elim, small⟩
  packed := fun _ _ _ short => short
  message := fun _ _ short => short
  entry := fun _ _ _ _ _ short => short
  extension := by
    rintro t e v ⟨known, ⟨⟩, -⟩
  unknown := fun _ _ _ kept _ => kept

lemma Rules.join_filled : (Rules.parsed p table).Join (.filled p) 1 (.reread True p table) where
  scalar := fun _ _ holds bounded => ⟨holds, fun _ => bounded.1, bounded.2⟩
  packed := fun _ _ _ short => short
  message := fun _ _ short => short
  entry := fun _ _ _ _ _ short => short
  extension := fun _ _ _ known filled => ⟨known, filled⟩
  unknown := fun _ _ _ kept _ => kept

lemma Typed.isClass {R : Rules} {content : Value → Prop} {levels : Nat} {v : Value}
    (typed : Typed p R content levels t v) : (p.plan? t).isSome = true := by
  rw [typed_eq] at typed
  obtain ⟨c, -, found, -⟩ := typed
  simp [found]

lemma Rules.not_numeric_reread : ¬(Rules.reread False p table).Numeric := by
  intro numeric
  have number := numeric .double (.float ⟨0x7ff8000000000000⟩) ⟨.inl rfl, False.elim, by decide⟩
  exact absurd number (by decide)

/-! ## Acceptance -/

/-- **Acceptance.**  Whatever data a message was read from, if no message in it lies deeper than data is
read, what is written of it is read, as a message that is written in the same way. -/
theorem parse_serialize_parse (built : Program.build files options = .ok p) (regular : p.arena.Regular)
    (clear : p.Clear) (valid : p.Valid) (parsed : parse p none t data = .ok m)
    (sized : Typed p (.sized p) (fun _ => False) maxDepth t m.value) :
    ∃ bytes m', p.serialize m.value = .ok bytes ∧ parse p none t bytes = .ok m' ∧ p.serialize m'.value = .ok bytes := by
  have ready : p.Ready none := ready_of_build built regular clear (by simp)
  have typed : Typed p (.reread False p none) (fun _ => False) maxDepth t m.value :=
    (typed_of_parse ready valid sized.isClass parsed).join Rules.join_sized (fun _ impossible _ => impossible) sized
  obtain ⟨bytes, m', serialized, parsed', echo⟩ :=
    typed.exists_parse built ready Rules.legible_reread valid (fun numeric => (Rules.not_numeric_reread numeric).elim)
      (nofun) (Nat.le_refl _)
  exact ⟨bytes, m', serialized, parsed', echo.encoded.trans serialized⟩

/-- A not-a-number behind an unknown field is written in front of it, and read. -/
theorem parse_serialize_parse_point :
    ∃ m m', parse pointProgram none 0 [0x78, 1, 9, 1, 0, 0, 0, 0, 0, 0xf0, 0x7f] = .ok m
      ∧ Typed pointProgram (.sized pointProgram) (fun _ => False) maxDepth 0 m.value
      ∧ pointProgram.serialize m.value = .ok [9, 1, 0, 0, 0, 0, 0, 0xf0, 0x7f, 0x78, 1]
      ∧ parse pointProgram none 0 [9, 1, 0, 0, 0, 0, 0, 0xf0, 0x7f, 0x78, 1] = .ok m'
      ∧ pointProgram.serialize m'.value = .ok [9, 1, 0, 0, 0, 0, 0, 0xf0, 0x7f, 0x78, 1] := by
  obtain ⟨⟨able, regular, clear, -, valid⟩, isPlan, -⟩ := evaluated_point
  have written : (parse pointProgram none 0 [0x78, 1, 9, 1, 0, 0, 0, 0, 0, 0xf0, 0x7f]
      >>= fun m => pointProgram.serialize m.value) = .ok [9, 1, 0, 0, 0, 0, 0, 0xf0, 0x7f, 0x78, 1] := by
    decide +kernel
  have built : Program.build pointFiles {} = .ok pointProgram := build_ofFiles able
  have ready : pointProgram.Ready none := ready_of_build built regular clear (by simp)
  obtain ⟨m, parsed, serialized⟩ := bind_ok written
  have sized : Typed pointProgram (.sized pointProgram) (fun _ => False) maxDepth 0 m.value := by
    refine typed_of_scalars ready valid isPlan ?_ (fun _ _ _ => trivial) parsed
    simp only [mem_singleton, forall_eq]
    refine ⟨_, _, _, _, _, rfl, fun s holds => ?_⟩
    obtain ⟨x, rfl⟩ := holds.sorts
    exact show 0 < word64 by decide
  obtain ⟨bytes, m', serialized', rest⟩ := parse_serialize_parse built regular clear valid parsed sized
  cases serialized.symm.trans serialized'
  exact ⟨m, m', parsed, sized, serialized, rest⟩

/-- A message with one of its own class in it, and a map of such. -/
def nestFiles : List FileDecl :=
  [{ name := "a.proto"
     messages :=
      [{ name := "M"
         fields := [{ name := "a", number := 1, type := .message, typeName := ".M" },
          { name := "f", number := 2, label := .repeated, type := .message, typeName := ".M.FEntry" }]
         messages :=
          [{ name := "FEntry"
             fields := [{ name := "key", number := 1, type := .int32 },
              { name := "value", number := 2, type := .message, typeName := ".M" }]
             mapEntry := true }] }] }]

def nestProgram : Program := .ofFiles nestFiles

/-- Data on so many levels of messages. -/
def nestBytes (inside : Bytes) : (levels : Nat) → Bytes
  | 0 => inside
  | levels + 1 => Encoding.delimited 1 (nestBytes inside levels)

/-- An entry without a value is read on the last level.  With its value, it is one level too deep. -/
theorem parse_serialize_parse_deep :
    Program.build nestFiles {} = .ok nestProgram ∧ nestProgram.arena.Regular ∧ nestProgram.Clear
      ∧ nestProgram.Valid ∧ ∃ m, parse nestProgram none 0 (nestBytes [0x12, 0] 99) = .ok m
        ∧ nestProgram.serialize m.value = .ok (nestBytes [0x12, 4, 8, 0, 0x12, 0] 99)
        ∧ faultOf? (parse nestProgram none 0 (nestBytes [0x12, 4, 8, 0, 0x12, 0] 99))
          = some (.malformed (some 2) .tooDeep) := by
  obtain ⟨able, regular, clear, valid, written, fault⟩ : (Program.build nestFiles {}).isOk = true
      ∧ nestProgram.arena.Regular ∧ nestProgram.Clear ∧ nestProgram.Valid
      ∧ (parse nestProgram none 0 (nestBytes [0x12, 0] 99) >>= fun m => nestProgram.serialize m.value)
        = .ok (nestBytes [0x12, 4, 8, 0, 0x12, 0] 99)
      ∧ faultOf? (parse nestProgram none 0 (nestBytes [0x12, 4, 8, 0, 0x12, 0] 99))
        = some (.malformed (some 2) .tooDeep) := by decide +kernel
  obtain ⟨m, parsed, serialized⟩ := bind_ok written
  exact ⟨build_ofFiles able, regular, clear, valid, m, parsed, serialized, fault⟩

/-! ## Extensions -/

/-- What a message in a store answers if it is asked for an extension. -/
def Store.asked (p : Program) (s : Store) (ref : Nat) (e : Extension) : Except Fault Bool :=
  match Storing.hasExtension p ref e s with
  | .ok answer _ => .ok answer
  | .error f _ => .error f

/-- Some data and other data are read into any stores, as messages that give the same answers if they are asked
for extensions. -/
def AnswerAlike (p : Program) (table : Option ExtensionTable) (t : TypeId) (data other : Bytes) : Prop :=
  ∀ s s' : Store, ∃ ref s₁ ref' s₁', Storing.parse p table t data true s = .ok (.message ref) s₁
    ∧ Storing.parse p table t other true s' = .ok (.message ref') s₁'
    ∧ ∀ e, s₁'.asked p ref' e = s₁.asked p ref e

section store

variable {s s' : Store} {ref ref' : Nat} {e : Extension} {o o' : Object}

lemma asked_eq_iff {answer : Except Fault Bool} : s.asked p ref e = answer
    ↔ Ends (Storing.hasExtension p ref e) s (fun flag _ => answer = .ok flag) fun f _ => answer = .error f := by
  unfold Store.asked Ends
  cases Storing.hasExtension p ref e s <;> exact eq_comm

/-- The answer depends on the class of a message and on the numbers of its extensions. -/
lemma asked_congr (here : s.objects[ref]? = some o) (there : s'.objects[ref']? = some o')
    (type : o'.type = o.type) (bare : o'.bare = o.bare) (plain : o.loose = []) (plain' : o'.loose = [])
    (numbers : ∀ n, n ∈ o'.extensions.map (·.1.number) ↔ n ∈ o.extensions.map (·.1.number)) :
    s'.asked p ref' e = s.asked p ref e := by
  have any : (o'.extensions.any fun x => x.1.number == e.number)
      = o.extensions.any fun x => x.1.number == e.number := by
    rw [Bool.eq_iff_iff, any_eq_true, any_eq_true]
    simpa using numbers e.number
  have extensible : Storing.isExtensible p o' = Storing.isExtensible p o := by
    rw [Storing.isExtensible, type, Storing.isExtensible]
  have answered := asked_eq_iff.1 (Eq.refl (s.asked p ref e))
  rw [asked_eq_iff]
  generalize s.asked p ref e = answer at answered ⊢
  simp only [Storing.hasExtension, Storing.object, Storing.checkAccessor, Storing.checkExtension,
    Storing.checkMethod, Storing.extensionsOf, Storing.extendedOf, Object.replaces, Extended.ofLoose, ends_bind,
    ends_get, ends_pure, ends_ite, ends_throw, here, there, plain, plain', type, bare, extensible, lookup_nil,
    Option.isSome_none, Bool.false_eq_true, if_false] at answered ⊢
  cases missing : o.bare || !Storing.isExtensible p o with
  | true => simpa only [missing, if_true, ends_throw] using answered
  | false => simpa only [missing, Bool.false_eq_true, if_false, ends_pure, any] using answered

/-- A value can be put into any store. -/
def Value.Placeable (p : Program) (v : Value) : Prop := ∀ s, Succeeds (Storing.place p v) s fun _ _ => True

lemma succeeds_placeList {items : List Value} (each : ∀ x ∈ items, x.Placeable p) :
    Succeeds (Storing.placeList p items) s fun _ _ => True := by
  induction items generalizing s with
  | nil => trivial
  | cons x rest ih =>
    obtain ⟨first, others⟩ := forall_mem_cons.1 each
    exact ends_bind.2 ((first s).ends fun _ _ _ => ends_bind.2 (ih others))

lemma succeeds_placeEntries {entries : List (Key × Value)} (each : ∀ x ∈ entries, x.2.Placeable p) :
    Succeeds (Storing.placeEntries p entries) s fun _ _ => True := by
  induction entries generalizing s with
  | nil => trivial
  | cons x rest ih =>
    obtain ⟨first, others⟩ := forall_mem_cons.1 each
    exact ends_bind.2 ((first s).ends fun _ _ _ => ends_bind.2 (ih others))

lemma succeeds_placeExtensions {extensions : List (Extension × Value)} (each : ∀ x ∈ extensions, x.2.Placeable p) :
    Succeeds (Storing.placeExtensions p extensions) s fun placed _ =>
      placed.map (·.1.number) = extensions.map (·.1.number) := by
  induction extensions generalizing s with
  | nil => rfl
  | cons x rest ih =>
    obtain ⟨first, others⟩ := forall_mem_cons.1 each
    refine ends_bind.2 ((first s).ends fun _ _ _ => ends_bind.2 ((ih others).ends fun placed _ same => ?_))
    exact congrArg (x.1.number :: ·) same

/-- A message whose parts can be put into a store becomes an object with its extensions. -/
lemma succeeds_place (slots : ∀ x ∈ m.slots, x.Placeable p) (extensions : ∀ x ∈ m.extensions, x.2.Placeable p)
    (s : Store) : Succeeds (Storing.place p m.value) s fun c s' => ∃ ref o, c = .message ref ∧ s'.objects[ref]? = some o
      ∧ o.type = m.head.type ∧ o.bare = m.head.bare ∧ o.loose = []
      ∧ o.extensions.map (·.1.number) = m.extensions.map (·.1.number) := by
  simp only [Content.value, Storing.place, Storing.newMessage, Storing.newBody, ends_bind, ends_pure]
  refine (succeeds_placeList slots).ends fun cells s₁ _ => ?_
  refine (succeeds_placeExtensions extensions).ends fun placed s₂ same => ?_
  cases ((p.plan? m.head.type).map (·.isIndirected)).getD false <;>
  · simp only [Storing.newStorage, Storing.newMark, Storing.newObject, ends_bind, ends_pure, ends_get, ends_set]
    exact ⟨_, _, rfl, getElem?_concat_length, rfl, rfl, rfl, same⟩

/-- Typed values can be put into a store: nothing in them contains itself. -/
lemma Rules.closed_placeable {R : Rules} : R.Closed (Value.Placeable p) where
  none := fun _ => trivial
  scalar := fun _ _ => trivial
  list := fun each _ => ends_bind.2 (succeeds_placeList each)
  map := fun _ _ each _ => ends_bind.2 (succeeds_placeEntries each)
  case := fun placeable s => ends_bind.2 (placeable s)

lemma Typed.exists_object {R : Rules} {levels : Nat} (typed : Typed p R (fun _ => False) levels t m.value)
    (s : Store) : ∃ ref s' o, Storing.place p m.value s = .ok (.message ref) s' ∧ s'.objects[ref]? = some o
      ∧ o.type = t ∧ o.bare = false ∧ o.loose = []
      ∧ o.extensions.map (·.1.number) = m.extensions.map (·.1.number) := by
  have below : ∀ k t v, Typed p R (fun _ => False) k t v → v.Placeable p := fun _ _ _ =>
    Rules.closed_placeable.typed (nofun) fun _ _ slots extensions s =>
      (succeeds_place slots extensions s).ends fun _ _ _ => trivial
  obtain ⟨c, _, -, is, fits⟩ := typed_eq p _ _ _ ▸ typed
  obtain rfl := Content.value_injective is
  obtain ⟨slots, extensions⟩ := Rules.closed_placeable.parts (only_inside fun k _ => below k) (nofun) fits
  obtain ⟨_, s', placed, ref, o, rfl, found, type, bare, rest⟩ :=
    (succeeds_place slots extensions s).exists_run
  exact ⟨ref, s', o, placed, found, type.trans fits.type, bare.trans fits.whole, rest⟩

lemma place_of_parse (parsed : parse p table t data = .ok m) :
    Storing.parse p table t data true s = Storing.place p m.value s := by
  rw [Storing.parse, parsed]
  rfl

end store

/-- **Extensions.**  Whatever data a message was read from, if no extension in it is set to an empty list,
what is written of it is read as an equal message, which has the same extensions. -/
theorem parse_serialize_extended (built : Program.build files options = .ok p) (regular : p.arena.Regular)
    (clear : p.Clear) (comparable : p.Comparable) (valid : p.Valid)
    (extensions : ∀ known ∈ table, known.Clear p) (parsed : parse p table t data = .ok m)
    (filled : Typed p (.filled p) (fun _ => False) maxDepth t m.value) :
    ∃ bytes m', p.serialize m.value = .ok bytes ∧ parse p table t bytes = .ok m'
      ∧ equal p m'.value m.value = .ok true ∧ equal p m.value m'.value = .ok true
      ∧ AnswerAlike p table t data bytes := by
  have ready := ready_of_build built regular clear extensions
  have typed : Typed p (.reread True p table) (fun _ => False) maxDepth t m.value :=
    (typed_of_parse ready valid filled.isClass parsed).join Rules.join_filled (fun _ impossible _ => impossible) filled
  obtain ⟨bytes, m', serialized, parsed', echo⟩ :=
    typed.exists_parse built ready Rules.legible_reread valid (fun _ => comparable) (nofun) (Nat.le_refl _)
  have same := echo.same (.inl fun _ _ holds => holds.2.1 trivial)
  refine ⟨bytes, m', serialized, parsed', same.1, same.2, fun s s' => ?_⟩
  obtain ⟨ref, s₁, o, placed, here, type, bare, plain, numbers⟩ := typed.exists_object s
  obtain ⟨ref', s₁', o', placed', there, type', bare', plain', numbers'⟩ := echo.fits.exists_object s'
  refine ⟨ref, s₁, ref', s₁', (place_of_parse parsed).trans placed, (place_of_parse parsed').trans placed', fun e => ?_⟩
  refine asked_congr here there (type'.trans type.symm) (bare'.trans bare.symm) plain plain' fun n => ?_
  rw [numbers, numbers']
  exact echo.extended n

/-- A list of numbers as an extension. -/
def listExtension : Extension := { number := 10, name := "e", extended := 0, type := .int32, repeated := true }

def listTable : Option ExtensionTable := some [listExtension]

/-- What a message that is read into a new store answers if it is asked for the list. -/
def listAnswer (data : Bytes) : Option Bool :=
  match Storing.parse treeProgram listTable 0 data true {} with
  | .ok (.message ref) s => (s.asked treeProgram ref listExtension).toOption
  | _ => none

lemma evaluated_list :
    ((Program.build treeFiles {}).isOk = true ∧ treeProgram.arena.Regular ∧ treeProgram.Clear
      ∧ treeProgram.Comparable ∧ treeProgram.Valid ∧ ExtensionTable.Clear treeProgram [listExtension])
      ∧ (treeProgram.plan? 0).map (fun c => (c.isAny, c.slots)) = some (false, [])
      ∧ (parse treeProgram listTable 0 [0x78, 1, 0x52, 2, 5, 6] >>= fun m => treeProgram.serialize m.value)
        = .ok [0x50, 5, 0x50, 6, 0x78, 1]
      ∧ (parse treeProgram listTable 0 [0x78, 1, 0x52, 2, 5, 6]).map (·.extensions.map (·.2.truthy)) = .ok [true]
      ∧ (parse treeProgram listTable 0 [0x52, 0] >>= fun m => treeProgram.serialize m.value) = .ok []
      ∧ (parse treeProgram listTable 0 [0x52, 0] >>= fun m => parse treeProgram listTable 0 [] >>= fun m' =>
        equal treeProgram m'.value m.value) = .ok false
      ∧ listAnswer [0x52, 0] = some true ∧ listAnswer [] = some false := by
  decide +kernel

/-- A message without fields and with numbers as its extension is within bounds. -/
lemma filled_list {levels levels' : Nat}
    (typed : Typed treeProgram (.parsed treeProgram listTable) (fun _ => False) levels 0 m.value)
    (nonempty : m.extensions.map (·.2.truthy) = [true]) :
    Typed treeProgram (.filled treeProgram) (fun _ => False) levels' 0 m.value := by
  have isPlan := evaluated_list.2.1
  rw [typed_eq] at typed ⊢
  obtain ⟨c, m', found, same, fits⟩ := typed
  obtain rfl : m = m' := Content.value_injective same
  rw [found, Option.map_some, Option.some.injEq, Prod.mk.injEq] at isPlan
  obtain ⟨plain, slots⟩ := isPlan
  refine ⟨c, m, found, rfl, fits.type, fits.whole, fits.plain, trivial, fits.length, ?_, ?_, fits.distinct, ?_⟩
  · simp [slots]
  · simp [plain]
  · rintro ⟨e, v⟩ member
    obtain ⟨extended, range, ⟨_, ⟨⟩, isKnown⟩, valueFits⟩ := fits.extensions _ member
    obtain rfl : e = listExtension := mem_singleton.1 (mem_of_find?_eq_some isKnown)
    obtain ⟨items, rfl, all, -⟩ : ScalarsFit (.parsed treeProgram listTable) .int32 false v := valueFits
    refine ⟨extended, range, ?_, items, rfl, fun x inside => ?_, Bool.noConfusion⟩
    · rintro ⟨⟩
      have unset : false ∈ m.extensions.map (·.2.truthy) := mem_map.2 ⟨_, member, rfl⟩
      rw [nonempty] at unset
      simp at unset
    · obtain ⟨s, rfl, holds⟩ := all x inside
      obtain ⟨i, rfl⟩ := holds.sorts
      exact ⟨_, rfl, rfl, show 0 < word64 by decide⟩

/-- Numbers that were read in one run are written one by one, in front of the unknown fields. -/
theorem parse_serialize_extended_list :
    ∃ m m', parse treeProgram listTable 0 [0x78, 1, 0x52, 2, 5, 6] = .ok m
      ∧ Typed treeProgram (.filled treeProgram) (fun _ => False) maxDepth 0 m.value
      ∧ treeProgram.serialize m.value = .ok [0x50, 5, 0x50, 6, 0x78, 1]
      ∧ parse treeProgram listTable 0 [0x50, 5, 0x50, 6, 0x78, 1] = .ok m'
      ∧ equal treeProgram m'.value m.value = .ok true ∧ equal treeProgram m.value m'.value = .ok true
      ∧ AnswerAlike treeProgram listTable 0 [0x78, 1, 0x52, 2, 5, 6] [0x50, 5, 0x50, 6, 0x78, 1] := by
  obtain ⟨⟨able, regular, clear, comparable, valid, extensions⟩, isPlan, written, set, -⟩ := evaluated_list
  have built : Program.build treeFiles {} = .ok treeProgram := build_ofFiles able
  have known : ∀ known ∈ listTable, known.Clear treeProgram := by
    rintro _ ⟨⟩
    exact extensions
  have isClass : (treeProgram.plan? 0).isSome = true := by
    obtain ⟨c, found, -⟩ := Option.map_eq_some_iff.1 isPlan
    simp [found]
  obtain ⟨m, parsed, serialized⟩ := bind_ok written
  rw [parsed] at set
  have filled : Typed treeProgram (.filled treeProgram) (fun _ => False) maxDepth 0 m.value :=
    filled_list (typed_of_parse (ready_of_build built regular clear known) valid isClass parsed) (Except.ok.inj set)
  obtain ⟨bytes, m', serialized', rest⟩ :=
    parse_serialize_extended built regular clear comparable valid known parsed filled
  cases serialized.symm.trans serialized'
  exact ⟨m, m', parsed, filled, serialized, rest⟩

/-- An extension that was read from an empty run is set.  Nothing is written of it. -/
theorem parse_serialize_extended_empty :
    Program.build treeFiles {} = .ok treeProgram ∧ treeProgram.arena.Regular ∧ treeProgram.Clear
      ∧ treeProgram.Comparable ∧ treeProgram.Valid ∧ (∀ known ∈ listTable, known.Clear treeProgram)
      ∧ ∃ m m', parse treeProgram listTable 0 [0x52, 0] = .ok m ∧ treeProgram.serialize m.value = .ok []
        ∧ parse treeProgram listTable 0 [] = .ok m' ∧ equal treeProgram m'.value m.value = .ok false
        ∧ listAnswer [0x52, 0] = some true ∧ listAnswer [] = some false := by
  obtain ⟨⟨able, regular, clear, comparable, valid, extensions⟩, -, -, -, written, equals, answers⟩ := evaluated_list
  obtain ⟨m, parsed, serialized⟩ := bind_ok written
  obtain ⟨_, again, equals⟩ := bind_ok equals
  cases parsed.symm.trans again
  obtain ⟨m', parsed', differs⟩ := bind_ok equals
  refine ⟨build_ofFiles able, regular, clear, comparable, valid, ?_, m, m', parsed, serialized, parsed',
    differs, answers⟩
  rintro _ ⟨⟩
  exact extensions

end Missive
