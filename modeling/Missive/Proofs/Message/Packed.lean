import Missive.Proofs.Message.Framing
import Missive.Proofs.Message.Restore

/-!
# Packed and single fields

The scalars of a repeated field may be cut into pieces, each of which is one packed field or a field of a
single scalar.  However they are cut, reading gathers them all, in order.  A packed field that breaks off
inside a scalar gives the scalars before it and is then found malformed.
-/

namespace Missive

open List Cursor

variable {t : FieldType} {s : Scalar} {number : Int} {bytes rest part more : Bytes} {depth : Nat}
  {group : Option Nat} {cur : Cursor}

/-- A piece of a repeated field: one packed field, which may be empty, or a field of one scalar. -/
inductive Piece where
  | packed (scalars : List Scalar)
  | single (s : Scalar)

namespace Piece

def scalars : Piece → List Scalar
  | packed scalars => scalars
  | single s => [s]

/-- What is packed, without its tag and length. -/
def payload (t : FieldType) (scalars : List Scalar) : Written :=
  .concat ((scalars.map Value.scalar).map fun v => .ofExcept (t.encode v))

def written (t : FieldType) (number : Int) : Piece → Written
  | packed scalars => .delimited number (payload t scalars)
  | single s => .scalar number t (.scalar s)

/-- The scalars belong to a type, and if they are packed, their length can be written. -/
structure Fits (t : FieldType) (piece : Piece) : Prop where
  holds : ∀ s ∈ piece.scalars, t.Holds s
  small : ∀ scalars, piece = packed scalars → (payload t scalars).bytes.length < word64

end Piece

/-- Fields up to the end of the data are taken as scalars of a repeated field, which are added to a list. -/
inductive Cursor.Gathers (t : FieldType) : Cursor → List Scalar → List Scalar → Prop
  | done {cur cur' : Cursor} {values : List Scalar} (ends : next cur = .ok none cur') : Gathers t cur values values
  | step {cur cur' cur'' : Cursor} {number : Nat} {values more all : List Scalar}
      (found : next cur = .ok (some number) cur') (taken : repeated t cur' = .ok ⟨more, none⟩ cur'')
      (later : Gathers t cur'' (values ++ more) all) : Gathers t cur values all

/-- Behind a tag that is read, a field is taken. -/
lemma IsTaken.exists_next {P : Cursor → Cursor → Prop} (taken : IsTaken depth group number bytes P)
    (positive : 0 < number) (bounded : number ≤ maxFieldNumber) (before : cur.Before depth group (bytes ++ rest)) :
    ∃ cur' cur'', Cursor.next cur = .ok (some number.toNat) cur' ∧ P cur' cur'' ∧ cur''.Before depth group rest := by
  obtain ⟨wire, payload, opens, rfl, taken⟩ := taken
  rw [append_assoc] at before
  obtain ⟨_, cur', run, rfl, stands⟩ :=
    (next_field before (spellsTag_tag positive bounded wire) opens).exists_run
  obtain ⟨cur'', holds, before'⟩ := taken stands
  exact ⟨cur', cur'', run, holds, before'⟩

lemma FieldType.Holds.size_lt (packable : t.isPackable = true) (holds : t.Holds s) : s.size < word64 := by
  cases s with
  | text => cases holds; cases packable
  | bytes => cases holds; cases packable
  | _ => exact show 0 < word64 by decide

/-- **One piece** is written, and taken as its scalars. -/
lemma Piece.Fits.exists_taken {piece : Piece} (fits : piece.Fits t) (packable : t.isPackable = true) (number : Int) :
    ∃ bytes, piece.written t number = ⟨bytes, none⟩ ∧ IsTaken depth group number bytes
        fun cur cur' => Cursor.repeated t cur = .ok ⟨piece.scalars, none⟩ cur' := by
  cases piece with
  | single s =>
    have holds := fits.holds s (mem_singleton_self s)
    obtain ⟨bytes, encoded, -⟩ := FieldType.exists_encode holds
    refine ⟨_, Written.scalar_ok encoded, isTaken_single holds (holds.size_lt packable) ?_⟩
    rw [Encoding.scalar, encoded]
    rfl
  | packed scalars =>
    have each : ∀ v ∈ scalars.map Value.scalar, ∃ s, v = .scalar s ∧ t.Holds s ∧ s.size < word64 := by
      intro v member
      obtain ⟨s, inside, rfl⟩ := mem_map.1 member
      exact ⟨s, rfl, fits.holds s inside, (fits.holds s inside).size_lt packable⟩
    have able : ∀ v ∈ scalars.map Value.scalar, ∃ bytes, t.encode v = .ok bytes
        ∧ Written.ofExcept (t.encode v) = ⟨bytes, none⟩ := by
      intro v member
      obtain ⟨s, rfl, holds, -⟩ := each v member
      obtain ⟨bytes, encoded, -⟩ := FieldType.exists_encode holds
      exact ⟨bytes, encoded, by rw [encoded]; rfl⟩
    obtain ⟨bytes, encoded, written⟩ := exists_all able
    obtain ⟨scalars', same, writes⟩ := FieldType.exists_writesAll each encoded
    obtain rfl : scalars = scalars' := map_injective_iff.2 (fun _ _ => Value.scalar.inj) same
    have written : Piece.payload t scalars = ⟨bytes, none⟩ := written
    have small := fits.small scalars rfl
    rw [written] at small
    refine ⟨_, by rw [Piece.written, written]; rfl, (isTaken_packed packable small number).mono ?_⟩
    intro cur cur' run
    rwa [writes.readPacked le_rfl] at run

/-- **All pieces** are written, and gathered in order. -/
lemma exists_gathers {pieces : List Piece} (packable : t.isPackable = true) (positive : 0 < number)
    (bounded : number ≤ maxFieldNumber) (fits : ∀ piece ∈ pieces, piece.Fits t) :
    ∃ bytes, Written.concat (pieces.map (·.written t number)) = ⟨bytes, none⟩
      ∧ ∀ (cur : Cursor) (values : List Scalar), cur.Before depth none bytes →
        cur.Gathers t values (values ++ pieces.flatMap Piece.scalars) := by
  induction pieces with
  | nil =>
    refine ⟨[], rfl, fun cur values before => ?_⟩
    obtain ⟨_, cur', run, rfl, -⟩ := (next_end before).exists_run
    rw [flatMap_nil, append_nil]
    exact .done run
  | cons piece others ih =>
    obtain ⟨first, written, taken⟩ := (fits piece (.head _)).exists_taken packable number
    obtain ⟨bytes, writtenOthers, gathers⟩ := ih fun other member => fits other (.tail _ member)
    refine ⟨first ++ bytes, ?_, fun cur values before => ?_⟩
    · rw [map_cons, Written.concat, foldr_cons, ← Written.concat, written, writtenOthers, Written.append_ok]
    · obtain ⟨cur', cur'', found, run, before'⟩ := taken.exists_next positive bounded before
      rw [flatMap_cons, ← append_assoc]
      exact .step found run (gathers cur'' _ before')

/-! ## Runs that break off -/

/-- Packed scalars are read, however each of them is spelled, and then what follows them. -/
lemma FieldType.readPacked_append {scalars : List Scalar} {elements : List Bytes} (scalar : t.isScalar = true)
    (spelled : Forall₂ (fun s e => t.read t.wire e = .ok (s, [])) scalars elements) (tail : Bytes)
    {turns : Nat} (enough : (elements.flatten ++ tail).length ≤ turns) :
    ∃ turns', tail.length ≤ turns' ∧ t.readPacked turns (elements.flatten ++ tail)
      = ⟨scalars ++ (t.readPacked turns' tail).values, (t.readPacked turns' tail).fault⟩ := by
  induction spelled generalizing turns with
  | nil => exact ⟨turns, enough, rfl⟩
  | @cons s e scalars elements first _ ih =>
    obtain ⟨payload, -, whole, again⟩ := read_framed first
    obtain rfl : e = payload := by simpa using whole
    have nonempty : e ≠ [] := by
      rcases t.read_spec scalar e with ⟨s, front, rest, -, some, rfl⟩ | ⟨f, failed, -⟩
      · simp [some]
      · cases first.symm.trans failed
    obtain ⟨b, behind, rfl⟩ := exists_cons_of_ne_nil nonempty
    simp only [flatten_cons, append_assoc, length_append, length_cons] at enough
    obtain ⟨turns, rfl⟩ : ∃ k, turns = k + 1 := ⟨turns - 1, by omega⟩
    obtain ⟨turns', enough', rest⟩ := ih (show (elements.flatten ++ tail).length ≤ turns by
      rw [length_append]; omega)
    refine ⟨turns', enough', ?_⟩
    have found := again (elements.flatten ++ tail)
    simp only [flatten_cons, append_assoc, cons_append] at found ⊢
    simp only [FieldType.readPacked, found, rest]

/-- A front of the bytes of a scalar reads as nothing. -/
lemma FieldType.read_cut (scalar : t.isScalar = true) (whole : t.read t.wire (part ++ more) = .ok (s, []))
    (cut : more ≠ []) : ∃ e, t.read t.wire part = .error e ∧ e.isMalformed = true := by
  rcases t.read_spec scalar part with ⟨s', front, rest, found, -⟩ | failed
  · obtain ⟨payload, -, rfl, again⟩ := read_framed found
    have other := again (rest ++ more)
    rw [← append_assoc, whole] at other
    cases rest <;> cases more <;> cases other
    exact absurd rfl cut
  · exact failed

/-- **However they are cut.**  The scalars of a repeated field are gathered behind those that are there
already, whichever of them are packed.  A packed field that ends inside of a scalar is malformed. -/
theorem gathers_pieces (packable : t.isPackable = true) (positive : 0 < number) (bounded : number ≤ maxFieldNumber) :
    (∀ pieces : List Piece, (∀ piece ∈ pieces, piece.Fits t) →
      ∃ bytes, Written.concat (pieces.map (·.written t number)) = ⟨bytes, none⟩
        ∧ ∀ values, (Cursor.ofBytes bytes).Gathers t values (values ++ pieces.flatMap Piece.scalars))
    ∧ ∀ (scalars : List Scalar) (elements : List Bytes) (part more : Bytes) (s : Scalar),
      Forall₂ (fun s e => t.read t.wire e = .ok (s, [])) scalars elements →
      t.read t.wire (part ++ more) = .ok (s, []) → part ≠ [] → more ≠ [] →
      (elements.flatten ++ part).length < word64 →
      ∃ cur cur' e, Cursor.next (.ofBytes (Written.delimited number ⟨elements.flatten ++ part, none⟩).bytes)
          = .ok (some number.toNat) cur
        ∧ Cursor.repeated t cur = .ok ⟨scalars, some e⟩ cur' ∧ e.isMalformed = true := by
  have scalar : t.isScalar = true := by cases t <;> first | rfl | cases packable
  constructor
  · intro pieces fits
    obtain ⟨bytes, written, gathers⟩ := exists_gathers packable positive bounded fits
    exact ⟨bytes, written, fun values => gathers _ values (before_ofBytes bytes)⟩
  · intro scalars elements part more s spelled whole begun cut small
    have before := before_ofBytes (Encoding.delimited number (elements.flatten ++ part))
    rw [← append_nil (Encoding.delimited ..)] at before
    obtain ⟨cur, cur', found, run, -⟩ :=
      (isTaken_packed packable small number).exists_next positive bounded before
    obtain ⟨turns, enough, packed⟩ := FieldType.readPacked_append scalar spelled part le_rfl
    obtain ⟨e, failed, malformed⟩ := FieldType.read_cut scalar whole cut
    obtain ⟨b, behind, rfl⟩ := exists_cons_of_ne_nil begun
    obtain ⟨turns, rfl⟩ : ∃ k, turns = k + 1 := ⟨turns - 1, by simp at enough; omega⟩
    simp only [packed, FieldType.readPacked, failed, append_nil] at found run
    exact ⟨cur, cur', e, found, run, malformed⟩

theorem gathers_pieces_mixed :
    (∃ bytes, Written.concat ([Piece.packed [.int 1, .int (-2)], .single (.int 3), .packed []].map
          (·.written .sint32 1)) = ⟨bytes, none⟩
      ∧ (Cursor.ofBytes bytes).Gathers .sint32 [.int 7] [.int 7, .int 1, .int (-2), .int 3])
    ∧ ∃ cur cur' e, Cursor.next (.ofBytes (Written.delimited 1 ⟨[[2]].flatten ++ [128], none⟩).bytes) = .ok (some 1) cur
      ∧ Cursor.repeated .sint32 cur = .ok ⟨[.int 1], some e⟩ cur' ∧ e.isMalformed = true := by
  obtain ⟨whole, broken⟩ := gathers_pieces (t := .sint32) rfl (show (0 : Int) < 1 by decide) (by decide)
  have holds : ∀ i ∈ [1, -2, 3], FieldType.sint32.Holds (.int i) := fun i member =>
    ⟨_, _, rfl, by fin_cases member <;> decide, by fin_cases member <;> decide⟩
  have fits : ∀ piece ∈ [Piece.packed [.int 1, .int (-2)], .single (.int 3), .packed []], piece.Fits .sint32 := by
    intro piece member
    fin_cases member
    · exact ⟨by simpa [Piece.scalars] using ⟨holds 1 (by simp), holds (-2) (by simp)⟩, by rintro _ ⟨⟩; decide⟩
    · exact ⟨by simpa [Piece.scalars] using holds 3 (by simp), by rintro _ ⟨⟩⟩
    · exact ⟨by simp [Piece.scalars], by rintro _ ⟨⟩; decide⟩
  obtain ⟨bytes, written, gathers⟩ := whole _ fits
  exact ⟨⟨bytes, written, gathers [.int 7]⟩,
    broken [.int 1] [[2]] [128] [1] (.int 64) (.cons rfl .nil) (by cbv) (by decide) (by decide) (by decide)⟩

end Missive
