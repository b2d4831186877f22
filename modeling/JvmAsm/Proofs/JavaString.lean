/- Shows that strings survive their byte form, and that texts survive the form of strings. -/
import JvmAsm.JavaString.ModifiedUtf8
import Mathlib

namespace JvmAsm.JavaString

open List UInt16

variable {bytes rest : List UInt8} {unit : UInt16} {size : Nat}

section Bytes

lemma toNat_ofByte {value : Nat} (fits : value < 0x100) : (UInt8.ofNat value).toNat = value :=
  UInt8.toNat_ofNat_of_lt' fits

/-- The bytes of a unit are one of four sequences, by the size of the unit. -/
lemma unitBytes_cases (unit : UInt16) :
    (unit.toNat = 0 ∧ unitBytes unit = [0xc0, 0x80]) ∨
    (0 < unit.toNat ∧ unit.toNat < 0x80 ∧ unitBytes unit = [UInt8.ofNat unit.toNat]) ∨
    (0x80 ≤ unit.toNat ∧ unit.toNat < 0x800 ∧ unitBytes unit =
      [UInt8.ofNat (0xc0 + unit.toNat / 0x40), UInt8.ofNat (0x80 + unit.toNat % 0x40)]) ∨
    (0x800 ≤ unit.toNat ∧ unitBytes unit =
      [UInt8.ofNat (0xe0 + unit.toNat / 0x1000), UInt8.ofNat (0x80 + unit.toNat / 0x40 % 0x40),
        UInt8.ofNat (0x80 + unit.toNat % 0x40)]) := by
  unfold unitBytes
  dsimp only
  split
  · exact .inl ⟨‹_›, rfl⟩
  split
  · exact .inr (.inl ⟨by omega, ‹_›, rfl⟩)
  split
  · exact .inr (.inr (.inl ⟨by omega, ‹_›, rfl⟩))
  · exact .inr (.inr (.inr ⟨by omega, rfl⟩))

lemma isContinuation_ofNat {value : Nat} (low : 0x80 ≤ value) (high : value < 0xc0) :
    isContinuation (UInt8.ofNat value) = true := by
  have same := toNat_ofByte (show value < 0x100 by omega)
  simp only [isContinuation, Bool.and_eq_true, decide_eq_true_eq, UInt8.le_iff_toNat_le,
    UInt8.lt_iff_toNat_lt, same]
  exact ⟨low, high⟩

lemma toUInt16_ofNat (unit : UInt16) (small : unit.toNat < 0x80) :
    (UInt8.ofNat unit.toNat).toUInt16 = unit := by
  apply UInt16.toNat_inj.mp
  rw [UInt8.toNat_toUInt16, toNat_ofByte (by omega)]

lemma unit2_ofNat (unit : UInt16) (small : unit.toNat < 0x800) :
    unit2 (UInt8.ofNat (0xc0 + unit.toNat / 0x40)) (UInt8.ofNat (0x80 + unit.toNat % 0x40)) =
      unit := by
  apply UInt16.toNat_inj.mp
  rw [unit2, toNat_ofByte (by omega), toNat_ofByte (by omega), UInt16.toNat_ofNat']
  omega

lemma unit3_ofNat (unit : UInt16) :
    unit3 (UInt8.ofNat (0xe0 + unit.toNat / 0x1000))
      (UInt8.ofNat (0x80 + unit.toNat / 0x40 % 0x40)) (UInt8.ofNat (0x80 + unit.toNat % 0x40)) =
      unit := by
  have bound := unit.toNat_lt
  apply UInt16.toNat_inj.mp
  rw [unit3, toNat_ofByte (by omega), toNat_ofByte (by omega), toNat_ofByte (by omega),
    UInt16.toNat_ofNat']
  omega

/-- Modified UTF-8 reads a unit back from its bytes, whatever follows them. -/
lemma modifiedSequence_unitBytes (index : Nat) (unit : UInt16) (rest : List UInt8) :
    ∃ first tail, unitBytes unit = first :: tail ∧
      modifiedSequence index first (tail ++ rest) = .ok (unit, tail.length) := by
  have bound := unit.toNat_lt
  obtain ⟨zero, written⟩ | ⟨_, small, written⟩ | ⟨large, small, written⟩ | ⟨large, written⟩ :=
    unitBytes_cases unit
  · refine ⟨0xc0, [0x80], written, ?_⟩
    obtain rfl : unit = 0 := UInt16.toNat_inj.mp zero
    rfl
  · refine ⟨_, [], written, ?_⟩
    have same := toNat_ofByte (show unit.toNat < 0x100 by omega)
    simp only [modifiedSequence, beq_iff_eq, ← UInt8.toNat_inj, UInt8.lt_iff_toNat_lt,
      UInt8.reduceToNat, same, toUInt16_ofNat unit small]
    rw [if_neg (by omega), if_pos small]
    rfl
  · refine ⟨_, [_], written, ?_⟩
    have same := toNat_ofByte (show 0xc0 + unit.toNat / 0x40 < 0x100 by omega)
    simp only [modifiedSequence, cons_append, nil_append, beq_iff_eq, ← UInt8.toNat_inj,
      UInt8.lt_iff_toNat_lt, UInt8.le_iff_toNat_le, Bool.and_eq_true, decide_eq_true_eq, same,
      isContinuation_ofNat (show 0x80 ≤ 0x80 + unit.toNat % 0x40 by omega) (by omega),
      Bool.not_true, Bool.false_eq_true, if_false, UInt8.reduceToNat, unit2_ofNat unit small]
    rw [if_neg (by omega), if_neg (by omega), if_neg (by omega), if_pos (by omega)]
    rfl
  · refine ⟨_, [_, _], written, ?_⟩
    have same := toNat_ofByte (show 0xe0 + unit.toNat / 0x1000 < 0x100 by omega)
    have second := toNat_ofByte (show 0x80 + unit.toNat / 0x40 % 0x40 < 0x100 by omega)
    simp only [modifiedSequence, cons_append, nil_append, beq_iff_eq, ← UInt8.toNat_inj,
      UInt8.lt_iff_toNat_lt, UInt8.le_iff_toNat_le, Bool.and_eq_true, decide_eq_true_eq, same,
      second, isContinuation_ofNat (show 0x80 ≤ 0x80 + unit.toNat / 0x40 % 0x40 by omega) (by omega),
      isContinuation_ofNat (show 0x80 ≤ 0x80 + unit.toNat % 0x40 by omega) (by omega),
      Bool.not_true, Bool.false_eq_true, if_false, UInt8.reduceToNat, unit3_ofNat unit]
    rw [if_neg (by omega), if_neg (by omega), if_neg (by omega), if_neg (by omega),
      if_pos (by omega), if_neg (by omega)]
    rfl

/-- Modified UTF-8 reads every string back. -/
lemma readModified_unitBytes (index : Nat) (found units : List UInt16) :
    readModified index found (units.flatMap unitBytes) = .ok (found.reverse ++ units) := by
  induction units generalizing index found with
  | nil => simp [readModified]
  | cons unit units ih =>
    obtain ⟨first, tail, written, read⟩ :=
      modifiedSequence_unitBytes index unit (units.flatMap unitBytes)
    rw [flatMap_cons, written, cons_append, readModified, read]
    dsimp only
    rw [drop_left, ih]
    simp

/-- Where ordinary UTF-8 reads the bytes of a unit, it gives that unit. -/
lemma plainSequence?_unitBytes {first : UInt8} {tail : List UInt8} {units : List UInt16}
    (written : unitBytes unit = first :: tail)
    (read : plainSequence? first (tail ++ rest) = some (units, size)) :
    units = [unit] ∧ size = tail.length := by
  have bound := unit.toNat_lt
  obtain ⟨_, sequence⟩ | ⟨_, small, sequence⟩ | ⟨large, small, sequence⟩ | ⟨large, sequence⟩ :=
    unitBytes_cases unit <;> rw [sequence] at written <;> cases written
  · exact absurd read (by simp [plainSequence?])
  · have ascii : UInt8.ofNat unit.toNat < 0x80 := by
      rw [UInt8.lt_iff_toNat_lt, toNat_ofByte (by omega)]
      exact small
    unfold plainSequence? at read
    rw [if_pos ascii, toUInt16_ofNat unit small] at read
    cases read
    exact ⟨rfl, rfl⟩
  · have same := toNat_ofByte (show 0xc0 + unit.toNat / 0x40 < 0x100 by omega)
    simp only [plainSequence?, cons_append, nil_append, UInt8.lt_iff_toNat_lt, same,
      isContinuation_ofNat (show 0x80 ≤ 0x80 + unit.toNat % 0x40 by omega) (by omega),
      if_true, UInt8.reduceToNat, unit2_ofNat unit small] at read
    rw [if_neg (by omega), if_neg (by omega), if_pos (by omega)] at read
    cases read
    exact ⟨rfl, rfl⟩
  · have same := toNat_ofByte (show 0xe0 + unit.toNat / 0x1000 < 0x100 by omega)
    simp only [plainSequence?, cons_append, nil_append, UInt8.lt_iff_toNat_lt, same,
      UInt8.reduceToNat, unit3_ofNat unit] at read
    rw [if_neg (by omega), if_neg (by omega), if_neg (by omega), if_pos (by omega)] at read
    split at read
    · cases read
      exact ⟨rfl, rfl⟩
    · contradiction

/-- Where ordinary UTF-8 reads the bytes of a string, it gives that string. -/
lemma readPlain_unitBytes {found units result : List UInt16}
    (read : readPlain found (units.flatMap unitBytes) = some result) :
    result = found.reverse ++ units := by
  induction units generalizing found with
  | nil =>
    simp only [flatMap_nil, readPlain, Option.some.injEq] at read
    simp [read]
  | cons unit units ih =>
    obtain ⟨first, tail, written, _⟩ :=
      modifiedSequence_unitBytes 0 unit (units.flatMap unitBytes)
    rw [flatMap_cons, written, cons_append, readPlain] at read
    split at read
    · next sequence size plain =>
      obtain ⟨rfl, rfl⟩ := plainSequence?_unitBytes written plain
      rw [drop_left] at read
      simpa using ih read
    · contradiction

/-- Strings survive being written as bytes. -/
lemma ofBytes_toBytes (string : JavaString) : ofBytes string.toBytes = .ok string := by
  unfold ofBytes
  split
  · next units read =>
    have same := readPlain_unitBytes read
    simp only [reverse_nil, nil_append] at same
    rw [same]
  · rw [toBytes, readModified_unitBytes]
    rfl

end Bytes

section Text

/-- A character takes one unit that is no surrogate, or a pair of surrogates. -/
lemma unitsOf_cases (c : Char) :
    (∃ unit, unitsOf c = [unit] ∧ isHigh unit = false ∧ isLow unit = false ∧
      Char.ofNat unit.toNat = c) ∨
    (∃ high low, unitsOf c = [high, low] ∧ isHigh high = true ∧ isLow low = true ∧
      paired high low = c) := by
  have valid := c.valid
  have bound : c.toNat < 0x110000 := by
    rcases valid with small | ⟨_, large⟩
    · change c.toNat < 0xd800 at small
      omega
    · exact large
  by_cases small : c.toNat < 0x10000
  · refine .inl ⟨ofNat c.toNat, by simp [unitsOf, small], ?_, ?_, ?_⟩
    all_goals have same : (ofNat c.toNat).toNat = c.toNat := toNat_ofNat_of_lt' small
    · simp only [isHigh, le_iff_toNat_le, lt_iff_toNat_lt, same]
      rcases valid with below | ⟨above, _⟩
      · change c.toNat < 0xd800 at below
        simp
        omega
      · change 0xdfff < c.toNat at above
        simp
        omega
    · simp only [isLow, le_iff_toNat_le, lt_iff_toNat_lt, same]
      rcases valid with below | ⟨above, _⟩
      · change c.toNat < 0xd800 at below
        simp
        omega
      · change 0xdfff < c.toNat at above
        simp
        omega
    · rw [same, Char.ofNat_toNat]
  · refine .inr ⟨ofNat (0xd800 + (c.toNat - 0x10000) / 0x400),
      ofNat (0xdc00 + (c.toNat - 0x10000) % 0x400), by simp [unitsOf, small], ?_, ?_, ?_⟩
    all_goals
      have high : (ofNat (0xd800 + (c.toNat - 0x10000) / 0x400)).toNat =
          0xd800 + (c.toNat - 0x10000) / 0x400 :=
        toNat_ofNat_of_lt' (by change _ < 0x10000; omega)
      have low : (ofNat (0xdc00 + (c.toNat - 0x10000) % 0x400)).toNat =
          0xdc00 + (c.toNat - 0x10000) % 0x400 :=
        toNat_ofNat_of_lt' (by change _ < 0x10000; omega)
    · simp only [isHigh, le_iff_toNat_le, lt_iff_toNat_lt, high]
      simp
      omega
    · simp only [isLow, le_iff_toNat_le, lt_iff_toNat_lt, low]
      simp
      omega
    · rw [paired, high, low, show 0x10000 + (0xd800 + (c.toNat - 0x10000) / 0x400 - 0xd800) * 0x400 +
        (0xdc00 + (c.toNat - 0x10000) % 0x400 - 0xdc00) = c.toNat by omega, Char.ofNat_toNat]

/-- The pieces of a text are its characters. -/
lemma piecesFrom_unitsOf (found : List Piece) (chars : List Char) :
    piecesFrom found (chars.flatMap unitsOf) = found.reverse ++ chars.map Piece.char := by
  induction chars generalizing found with
  | nil => simp [piecesFrom]
  | cons c chars ih =>
    obtain ⟨unit, units, high, low, same⟩ | ⟨high, low, units, isHigh, isLow, same⟩ :=
      unitsOf_cases c
    · rw [flatMap_cons, units, singleton_append]
      have step : piecesFrom found (unit :: chars.flatMap unitsOf) =
          piecesFrom (.char c :: found) (chars.flatMap unitsOf) := by
        cases chars.flatMap unitsOf with
        | nil => simp [piecesFrom, high, low, same]
        | cons => rw [piecesFrom]; simp [high, low, same]
      rw [step, ih]
      simp
    · rw [flatMap_cons, units, cons_append, singleton_append, piecesFrom]
      simp [isHigh, isLow, same, ih]

@[simp] lemma pieces_ofString (text : String) :
    (ofString text).pieces = text.toList.map Piece.char := by
  simp [pieces, ofString, piecesFrom_unitsOf]

/-- Texts survive the form of strings. -/
@[simp] lemma text?_ofString (text : String) : (ofString text).text? = some text := by
  have chars (list : List Char) : (list.map Piece.char).mapM Piece.char? = some list := by
    induction list with
    | nil => rfl
    | cons c rest ih => simp [Piece.char?, ih]
  rw [text?, pieces_ofString, chars, Option.map_some, String.ofList_toList]

def Piece.units : Piece → List UInt16
  | .char c => unitsOf c
  | .lone unit => [unit]

lemma toNat_ofNat {n : Nat} (valid : n.isValidChar) : (Char.ofNat n).toNat = n := by
  rw [Char.ofNat, dif_pos valid]
  rfl

lemma unitsOf_single (high : isHigh unit = false) (low : isLow unit = false) :
    unitsOf (Char.ofNat unit.toNat) = [unit] := by
  have bound := unit.toNat_lt
  have valid : unit.toNat.isValidChar := by
    simp only [isHigh, isLow, UInt16.le_iff_toNat_le, UInt16.lt_iff_toNat_lt] at high low
    simp at high low
    simp only [Nat.isValidChar]
    omega
  rw [unitsOf, toNat_ofNat valid, if_pos (by omega), UInt16.ofNat_toNat]

lemma unitsOf_paired {high low : UInt16} (isHigh : isHigh high = true) (isLow : isLow low = true) :
    unitsOf (paired high low) = [high, low] := by
  simp only [JavaString.isHigh, JavaString.isLow, UInt16.le_iff_toNat_le,
    UInt16.lt_iff_toNat_lt] at isHigh isLow
  simp at isHigh isLow
  have same : (paired high low).toNat =
      0x10000 + (high.toNat - 0xd800) * 0x400 + (low.toNat - 0xdc00) := by
    rw [paired, toNat_ofNat]
    simp only [Nat.isValidChar]
    omega
  rw [unitsOf, same, if_neg (by omega)]
  dsimp only
  rw [cons.injEq, cons.injEq, ← UInt16.toNat_inj, ← UInt16.toNat_inj,
    UInt16.toNat_ofNat_of_lt' (by change _ < 0x10000; omega),
    UInt16.toNat_ofNat_of_lt' (by change _ < 0x10000; omega)]
  exact ⟨by omega, by omega, rfl⟩

/-- A string is put together from its pieces. -/
lemma flatMap_piecesFrom (found : List Piece) (units : List UInt16) :
    (piecesFrom found units).flatMap Piece.units = found.reverse.flatMap Piece.units ++ units := by
  fun_induction piecesFrom found units with
  | case1 found => simp
  | case2 found high low rest pair ih =>
    rw [Bool.and_eq_true] at pair
    simp [ih, Piece.units, unitsOf_paired pair.1 pair.2]
  | case3 found high low rest pair alone ih => simp [ih, Piece.units]
  | case4 found high low rest pair plain ih =>
    rw [Bool.or_eq_true, not_or, Bool.not_eq_true, Bool.not_eq_true] at plain
    simp [ih, Piece.units, unitsOf_single plain.1 plain.2]
  | case5 found unit alone => simp [Piece.units]
  | case6 found unit plain =>
    rw [Bool.or_eq_true, not_or, Bool.not_eq_true, Bool.not_eq_true] at plain
    simp [Piece.units, unitsOf_single plain.1 plain.2]

lemma ofString_of_text? {string : JavaString} {text : String} (found : string.text? = some text) :
    ofString text = string := by
  obtain ⟨chars, all, rfl⟩ := Option.map_eq_some_iff.mp found
  have units (pieces : List Piece) (chars : List Char)
      (all : pieces.mapM Piece.char? = some chars) :
      chars.flatMap unitsOf = pieces.flatMap Piece.units := by
    induction pieces generalizing chars with
    | nil =>
      cases all
      rfl
    | cons piece rest ih =>
      simp only [mapM_cons, Option.bind_eq_bind, Option.bind_eq_some_iff] at all
      obtain ⟨c, first, more, mapped, same⟩ := all
      cases same
      cases piece with
      | lone unit => contradiction
      | char c =>
        cases first
        rw [flatMap_cons, flatMap_cons, ih more mapped, Piece.units]
  have whole := flatMap_piecesFrom [] string.units
  rw [reverse_nil, flatMap_nil, nil_append] at whole
  rw [ofString, String.toList_ofList, units _ _ all, pieces, whole]

end Text

section Size

lemma length_unitBytes_le (unit : UInt16) : (unitBytes unit).length ≤ 3 := by
  simp only [unitBytes]
  split
  · simp
  · split
    · simp
    · split <;> simp

lemma length_toBytes_le (string : JavaString) :
    string.toBytes.length ≤ 3 * string.units.length := by
  rw [toBytes]
  induction string.units with
  | nil => exact le_refl 0
  | cons unit rest ih =>
    have short := length_unitBytes_le unit
    rw [flatMap_cons, length_append, length_cons]
    omega

lemma length_unitsOf_le (c : Char) : (unitsOf c).length ≤ 2 := by
  simp only [unitsOf]
  split <;> simp

lemma length_plainSequence? {a : UInt8} {units : List UInt16}
    (found : plainSequence? a rest = some (units, size)) :
    units.length ≤ size + 1 ∧ size ≤ rest.length := by
  unfold plainSequence? at found
  repeat' split at found
  all_goals
    simp only [Option.some.injEq, Prod.mk.injEq, reduceCtorEq] at found
  all_goals obtain ⟨rfl, rfl⟩ := found
  · simp
  · simp
  · simp
  · exact ⟨le_trans (length_unitsOf_le _) (by decide), by simp⟩

/-- A string has no more units than the bytes that it is read from. -/
lemma length_readPlain {found units : List UInt16} (read : readPlain found bytes = some units) :
    units.length ≤ found.length + bytes.length := by
  fun_induction readPlain found bytes with
  | case1 found =>
    cases read
    simp
  | case2 found a rest more size sequence ih =>
    have short := length_plainSequence? sequence
    have later := ih read
    rw [length_append, length_reverse, length_drop] at later
    rw [length_cons]
    omega
  | case3 => contradiction

lemma length_modifiedSequence {index : Nat} {a : UInt8}
    (found : modifiedSequence index a rest = .ok (unit, size)) : size ≤ rest.length := by
  unfold modifiedSequence at found
  repeat' split at found
  all_goals simp only [Except.ok.injEq, Prod.mk.injEq, reduceCtorEq] at found
  all_goals obtain ⟨-, rfl⟩ := found
  all_goals simp

lemma length_readModified {index : Nat} {found units : List UInt16}
    (read : readModified index found bytes = .ok units) :
    units.length ≤ found.length + bytes.length := by
  fun_induction readModified index found bytes with
  | case1 index found =>
    cases read
    simp
  | case2 index found a rest unit size sequence ih =>
    have short := length_modifiedSequence sequence
    have later := ih read
    rw [length_cons, length_drop] at later
    rw [length_cons]
    omega
  | case3 => contradiction

lemma length_units_of_ofBytes {string : JavaString} (read : ofBytes bytes = .ok string) :
    string.units.length ≤ bytes.length := by
  unfold ofBytes at read
  split at read
  · next units plain =>
    cases read
    simpa using length_readPlain plain
  · cases modified : readModified 0 [] bytes with
    | error fault =>
      rw [modified] at read
      contradiction
    | ok units =>
      rw [modified] at read
      cases read
      simpa using length_readModified modified

end Size

end JvmAsm.JavaString
