import Mathlib.Data.Bool.AllAny
import Mathlib.Data.List.Basic

/-!
# The text of a UUID

The printer writes two digits per byte into a text of 36 characters and puts a
dash where its write position reaches one of four values.  The parser skips
separators wherever they stand and pairs the remaining characters.  A `char`
is a Lean character: those outside of ASCII are rejected like any other that
is not a digit.
-/

namespace AsioWrapper.Utils

inductive Exception where
  | domain (message : String)
  | argument (message : String)
  deriving DecidableEq, Repr

structure UUID where
  data : Vector UInt8 16
  deriving DecidableEq, Repr

/-! ## Printing -/

def digits : List Char := "0123456789abcdef".toList

def digit (value : UInt8) : Char := digits.getD value.toNat '\x00'

def highDigit (value : UInt8) : Char := digit ((value >>> 4) &&& 0x0F)

def lowDigit (value : UInt8) : Char := digit ((value >>> 0) &&& 0x0F)

structure Printer where
  result : List Char
  index : Nat

def Printer.put (p : Printer) (ch : Char) : Printer :=
  ⟨p.result.set p.index ch, p.index + 1⟩

def Printer.byte (p : Printer) (value : UInt8) : Printer :=
  let p := (p.put (highDigit value)).put (lowDigit value)
  if p.index = 8 ∨ p.index = 13 ∨ p.index = 18 ∨ p.index = 23 then p.put '-' else p

def UUID.string (uuid : UUID) : List Char :=
  (uuid.data.toList.foldl Printer.byte ⟨List.replicate 36 '0', 0⟩).result

/-! ## Parsing -/

def unhex (ch : Char) : Except Exception UInt8 :=
  if '0' ≤ ch ∧ ch ≤ '9' then .ok (UInt8.ofNat (ch.toNat - '0'.toNat))
  else if 'a' ≤ ch ∧ ch ≤ 'f' then .ok (UInt8.ofNat (10 + ch.toNat - 'a'.toNat))
  else if 'A' ≤ ch ∧ ch ≤ 'F' then .ok (UInt8.ofNat (10 + ch.toNat - 'A'.toNat))
  else .error (.domain "Invalid UUID character")

def isSeparator (ch : Char) : Bool := ch == '-' || ch == '{' || ch == '}'

structure Parser where
  v1 : Char
  pack : Bool
  index : Nat
  data : Vector UInt8 16

def Parser.initial : Parser := ⟨'\x00', false, 0, Vector.replicate 16 0⟩

def Parser.store (p : Parser) (value : UInt8) : Parser :=
  { p with pack := false, index := p.index + 1, data := p.data.setIfInBounds p.index value }

def Parser.read (p : Parser) : List Char → Except Exception Parser
  | [] => .ok p
  | ch :: rest =>
      if isSeparator ch then p.read rest
      else if p.pack then do
        let ui1 ← unhex p.v1
        let ui2 ← unhex ch
        if ui1 > 15 ∨ ui2 > 15 then throw (.argument "Invalid UUID literal")
        let p := p.store (ui1 * 16 + ui2)
        if p.index ≥ 16 then pure p else p.read rest
      else { p with v1 := ch, pack := true }.read rest

/-- The loop advances its index twice a turn. -/
def fillZero (data : Vector UInt8 16) (index : Nat) : Vector UInt8 16 :=
  if index < 16 then fillZero (data.setIfInBounds index 0) (index + 2) else data
  termination_by 16 - index

def UUID.ofText (text : List Char) : Except Exception UUID := do
  let p ← Parser.initial.read text
  pure ⟨fillZero p.data p.index⟩

/-! ## Digits -/

def hexDigits : List Char := "0123456789abcdefABCDEF".toList

/-- The value of a digit, and of the other characters nothing in particular. -/
def hexValue (ch : Char) : UInt8 := (unhex ch).toOption.getD 0

theorem unhex_hexDigit : ∀ ch ∈ hexDigits, unhex ch = .ok (hexValue ch) :=
  List.all_iff_forall_prop.mp (by decide)

theorem hexValue_le : ∀ ch ∈ hexDigits, hexValue ch ≤ 15 :=
  List.all_iff_forall_prop.mp (by decide)

private theorem digit_hexValue : ∀ ch ∈ hexDigits, digit (hexValue ch) = ch.toLower :=
  List.all_iff_forall_prop.mp (by decide)

theorem isSeparator_hexDigit : ∀ ch ∈ hexDigits, isSeparator ch = false :=
  List.all_iff_forall_prop.mp (by decide)

theorem digit_nibble : ∀ n : Fin 16, digit (UInt8.ofNat n) ∈ hexDigits ∧
    hexValue (digit (UInt8.ofNat n)) = UInt8.ofNat n := by decide

theorem highDigit_eq (value : UInt8) :
    highDigit value = digit (UInt8.ofNat (value.toNat / 16)) := by
  have hlt := value.toNat_lt
  refine congrArg digit (UInt8.toNat_inj.mp ?_)
  have hmask : (0x0F : UInt8).toNat = 2 ^ 4 - 1 := rfl
  have hshift : (4 : UInt8).toNat % 8 = 4 := rfl
  rw [UInt8.toNat_and, hmask, Nat.and_two_pow_sub_one_eq_mod, UInt8.toNat_shiftRight, hshift,
    Nat.shiftRight_eq_div_pow, UInt8.toNat_ofNat']
  omega

theorem lowDigit_eq (value : UInt8) :
    lowDigit value = digit (UInt8.ofNat (value.toNat % 16)) := by
  refine congrArg digit (UInt8.toNat_inj.mp ?_)
  have hmask : (0x0F : UInt8).toNat = 2 ^ 4 - 1 := rfl
  have hshift : (0 : UInt8).toNat % 8 = 0 := rfl
  rw [UInt8.toNat_and, hmask, Nat.and_two_pow_sub_one_eq_mod, UInt8.toNat_shiftRight, hshift,
    Nat.shiftRight_zero, UInt8.toNat_ofNat']
  omega

theorem highDigit_spec (value : UInt8) : highDigit value ∈ hexDigits ∧
    hexValue (highDigit value) = UInt8.ofNat (value.toNat / 16) := by
  have hlt := value.toNat_lt
  rw [highDigit_eq]
  exact digit_nibble ⟨value.toNat / 16, by omega⟩

theorem lowDigit_spec (value : UInt8) : lowDigit value ∈ hexDigits ∧
    hexValue (lowDigit value) = UInt8.ofNat (value.toNat % 16) := by
  rw [lowDigit_eq]
  exact digit_nibble ⟨value.toNat % 16, by omega⟩

theorem toNat_pack {high low : UInt8} (hhigh : high ≤ 15) (hlow : low ≤ 15) :
    (high * 16 + low).toNat = 16 * high.toNat + low.toNat := by
  rw [UInt8.le_iff_toNat_le] at hhigh hlow
  simp only [UInt8.reduceToNat] at hhigh hlow
  simp only [UInt8.toNat_add, UInt8.toNat_mul, UInt8.reduceToNat]
  omega

/-! ## What the printer writes -/

def hexText (bytes : List UInt8) : List Char :=
  bytes.flatMap fun value => [highDigit value, lowDigit value]

def dashAfter (count : Nat) : Bool := count == 4 || count == 6 || count == 8 || count == 10

def spell (k : Nat) : List UInt8 → List Char
  | [] => []
  | value :: rest =>
      highDigit value :: lowDigit value ::
        ((if dashAfter (k + 1) then ['-'] else []) ++ spell (k + 1) rest)

def position (k : Nat) : Nat := 2 * k + ([4, 6, 8, 10].filter fun dash => dash ≤ k).length

theorem position_succ : ∀ k < 16, position (k + 1) =
    position k + 2 + (if dashAfter (k + 1) then 1 else 0) := by decide

theorem dash_iff_position : ∀ k < 16,
    (position k + 2 = 8 ∨ position k + 2 = 13 ∨ position k + 2 = 18 ∨ position k + 2 = 23) ↔
      dashAfter (k + 1) = true := by decide

private theorem position_lt : ∀ k < 16, position (k + 1) ≤ 36 := by decide

def Printer.after (text : List Char) : Printer :=
  ⟨text ++ List.replicate (36 - text.length) '0', text.length⟩

theorem Printer.after_put {text : List Char} (ch : Char) (h : text.length < 36) :
    (Printer.after text).put ch = Printer.after (text ++ [ch]) := by
  obtain ⟨n, hn⟩ : ∃ n, 36 - text.length = n + 1 := ⟨35 - text.length, by omega⟩
  have hn' : 36 - (text ++ [ch]).length = n := by
    simp
    omega
  simp only [Printer.put, Printer.after, hn, hn']
  simp [List.replicate_succ]

theorem Printer.after_byte {text : List Char} {k : Nat} (value : UInt8) (hk : k < 16)
    (htext : text.length = position k) :
    (Printer.after text).byte value = Printer.after (text ++ spell k [value]) := by
  have hsucc := position_succ k hk
  have hlt := position_lt k hk
  have hdash := dash_iff_position k hk
  have htwo : ((Printer.after text).put (highDigit value)).put (lowDigit value) =
      Printer.after (text ++ [highDigit value, lowDigit value]) := by
    rw [Printer.after_put _ (by omega), Printer.after_put _ (by simp; omega),
      List.append_assoc]
    rfl
  have hindex : (Printer.after (text ++ [highDigit value, lowDigit value])).index =
      position k + 2 := by
    simp [Printer.after, htext]
  simp only [Printer.byte, htwo, hindex, hdash, spell, List.append_nil]
  split
  · rename_i hafter
    rw [if_pos hafter] at hsucc
    rw [Printer.after_put _ (by simp; omega)]
    simp
  · simp

theorem spell_append (k : Nat) (bytes more : List UInt8) :
    spell k (bytes ++ more) = spell k bytes ++ spell (k + bytes.length) more := by
  induction bytes generalizing k with
  | nil => rfl
  | cons value bytes ih =>
      simp only [List.cons_append, spell, ih, List.append_assoc, List.length_cons]
      rw [show k + 1 + bytes.length = k + (bytes.length + 1) by omega]

theorem length_spell (k : Nat) (bytes : List UInt8) (h : k + bytes.length ≤ 16) :
    position k + (spell k bytes).length = position (k + bytes.length) := by
  induction bytes generalizing k with
  | nil => rfl
  | cons value bytes ih =>
      simp only [List.length_cons] at h ⊢
      have hrest := ih (k + 1) (by omega)
      have hsucc := position_succ k (by omega)
      rw [show k + (bytes.length + 1) = k + 1 + bytes.length by omega, ← hrest, hsucc]
      simp only [spell, List.length_cons, List.length_append]
      split <;> simp <;> omega

/-- The loop of the printer; the invariant is the position after `k` bytes. -/
private theorem foldl_byte (bytes : List UInt8) {k : Nat} {text : List Char}
    (hk : k + bytes.length ≤ 16) (htext : text.length = position k) :
    bytes.foldl Printer.byte (Printer.after text) = Printer.after (text ++ spell k bytes) := by
  induction bytes generalizing k text with
  | nil => simp [spell]
  | cons value bytes ih =>
      simp only [List.length_cons] at hk
      have hlength : (text ++ spell k [value]).length = position (k + 1) := by
        rw [List.length_append, htext, length_spell k [value] (by simp; omega)]
        rfl
      have hsplit : spell k (value :: bytes) = spell k [value] ++ spell (k + 1) bytes :=
        spell_append k [value] bytes
      rw [List.foldl_cons, Printer.after_byte value (by omega) htext,
        ih (by omega) hlength, List.append_assoc, hsplit]

theorem UUID.string_eq (uuid : UUID) : uuid.string = spell 0 uuid.data.toList := by
  have hlength : (spell 0 uuid.data.toList).length = 36 := by
    have := length_spell 0 uuid.data.toList (by simp)
    simpa [position] using this
  have hloop : uuid.data.toList.foldl Printer.byte (Printer.after []) =
      Printer.after ([] ++ spell 0 uuid.data.toList) :=
    foldl_byte uuid.data.toList (k := 0) (by simp) rfl
  have hinitial : Printer.after [] = ⟨List.replicate 36 '0', 0⟩ := rfl
  rw [UUID.string, ← hinitial, hloop]
  simp [Printer.after, hlength]

/-! ## What the parser reads -/

def decode : List Char → List UInt8
  | high :: low :: rest => (hexValue high * 16 + hexValue low) :: decode rest
  | _ => []

def Parser.visible (text : List Char) : List Char := text.filter fun ch => !isSeparator ch

theorem Parser.read_visible (text : List Char) (p : Parser) :
    p.read (visible text) = p.read text := by
  induction text generalizing p with
  | nil => rfl
  | cons ch text ih =>
      by_cases hsep : isSeparator ch = true
      · simp only [visible, List.filter_cons, hsep, Bool.not_true, Bool.false_eq_true, if_false,
          Parser.read, if_true]
        exact ih p
      · simp only [Bool.not_eq_true] at hsep
        simp only [visible, List.filter_cons, hsep, Bool.not_false, if_true, Parser.read,
          Bool.false_eq_true, if_false]
        simp only [visible] at ih
        simp only [ih]

structure Parser.Holds (p : Parser) (bytes : List UInt8) : Prop where
  pack : p.pack = false
  index : p.index = bytes.length
  data : p.data.toList = bytes ++ List.replicate (16 - bytes.length) 0

theorem Parser.Holds.store {p : Parser} {bytes : List UInt8} (h : p.Holds bytes)
    (hlength : bytes.length < 16) (v1 : Char) (pack : Bool) (value : UInt8) :
    ({ p with v1 := v1, pack := pack }.store value).Holds (bytes ++ [value]) where
  pack := rfl
  index := by simp [Parser.store, h.index]
  data := by
    obtain ⟨n, hn⟩ : ∃ n, 16 - bytes.length = n + 1 := ⟨15 - bytes.length, by omega⟩
    have hn' : 16 - (bytes ++ [value]).length = n := by
      simp
      omega
    rw [hn']
    simp [Parser.store, h.data, h.index, hn, List.replicate_succ]

theorem Parser.read_pair {p : Parser} {bytes : List UInt8} (h : p.Holds bytes)
    (hlength : bytes.length < 16) {high low : Char} (hhigh : high ∈ hexDigits)
    (hlow : low ∈ hexDigits) (rest : List Char) :
    ∃ p' : Parser, p'.Holds (bytes ++ [hexValue high * 16 + hexValue low]) ∧
      p.read (high :: low :: rest) =
        if bytes.length + 1 ≥ 16 then .ok p' else p'.read rest := by
  refine ⟨_, h.store hlength high true _, ?_⟩
  have hsmall : ¬(hexValue high > 15 ∨ hexValue low > 15) := by
    have := hexValue_le high hhigh
    have := hexValue_le low hlow
    simp [*]
  simp only [Parser.read, isSeparator_hexDigit high hhigh, isSeparator_hexDigit low hlow,
    h.pack, unhex_hexDigit high hhigh, unhex_hexDigit low hlow, Bool.false_eq_true, if_false,
    if_true, bind, Except.bind, hsmall, pure, Except.pure, Parser.store, h.index]

theorem Parser.read_digits {text : List Char} (htext : ∀ ch ∈ text, ch ∈ hexDigits) {n : Nat}
    (heven : text.length = 2 * n) {p : Parser} {bytes : List UInt8} (h : p.Holds bytes)
    (hlength : bytes.length + n ≤ 16) :
    ∃ p', p.read text = .ok p' ∧ p'.Holds (bytes ++ decode text) := by
  induction n generalizing text p bytes with
  | zero =>
      obtain rfl := List.length_eq_zero_iff.mp heven
      exact ⟨p, rfl, by simpa [decode] using h⟩
  | succ n ih =>
      match text, heven with
      | high :: low :: rest, heven =>
          simp only [List.length_cons] at heven
          obtain ⟨p', hp', hread⟩ := Parser.read_pair h (by omega)
            (htext high (by simp)) (htext low (by simp)) rest
          have hrest : ∀ ch ∈ rest, ch ∈ hexDigits := fun ch hch => htext ch (by simp [hch])
          obtain ⟨p'', hread', hp''⟩ := ih hrest (by omega) hp' (by simp; omega)
          rw [hread]
          split
          · -- the loop is left with the sixteenth byte, so nothing was behind it
            obtain rfl : rest = [] := List.length_eq_zero_iff.mp (by omega)
            exact ⟨p', rfl, hp'⟩
          · exact ⟨p'', hread', by simpa [decode] using hp''⟩

private theorem fillZero_full (data : Vector UInt8 16) : fillZero data 16 = data := by
  rw [fillZero]
  simp

theorem length_decode {text : List Char} {n : Nat} (h : text.length = 2 * n) :
    (decode text).length = n := by
  induction n generalizing text with
  | zero =>
      obtain rfl := List.length_eq_zero_iff.mp h
      rfl
  | succ n ih =>
      match text, h with
      | high :: low :: rest, h =>
          simp only [List.length_cons] at h
          have hrest : rest.length = 2 * n := by omega
          simp [decode, ih hrest]

theorem UUID.ofText_digits {text : List Char}
    (hdigits : ∀ ch ∈ Parser.visible text, ch ∈ hexDigits)
    (hlength : (Parser.visible text).length = 32) :
    ∃ uuid, UUID.ofText text = .ok uuid ∧
      uuid.data.toList = decode (Parser.visible text) := by
  have hinitial : Parser.initial.Holds [] := ⟨rfl, rfl, rfl⟩
  obtain ⟨p, hread, hp⟩ := Parser.read_digits hdigits (n := 16) hlength hinitial (by simp)
  have hbytes := length_decode (n := 16) hlength
  rw [List.nil_append] at hp
  refine ⟨⟨p.data⟩, ?_, by simpa [hbytes] using hp.data⟩
  rw [Parser.read_visible] at hread
  have hindex : p.index = 16 := hp.index.trans hbytes
  simp [UUID.ofText, hread, bind, Except.bind, pure, Except.pure, hindex, fillZero_full]

/-! ## The round trip -/

private theorem decode_hexText (bytes : List UInt8) : decode (hexText bytes) = bytes := by
  induction bytes with
  | nil => rfl
  | cons value bytes ih =>
      have hvalue : hexValue (highDigit value) * 16 + hexValue (lowDigit value) = value := by
        have hlt := value.toNat_lt
        rw [(highDigit_spec value).2, (lowDigit_spec value).2]
        apply UInt8.toNat_inj.mp
        simp only [UInt8.toNat_add, UInt8.toNat_mul, UInt8.toNat_ofNat', UInt8.reduceToNat]
        omega
      simp only [hexText, List.flatMap_cons, List.cons_append, List.nil_append, decode, hvalue]
      exact congrArg (value :: ·) ih

theorem hexText_mem (bytes : List UInt8) : ∀ ch ∈ hexText bytes, ch ∈ hexDigits := by
  intro ch hch
  obtain ⟨value, -, hvalue⟩ := List.mem_flatMap.mp hch
  rcases List.mem_pair.mp hvalue with rfl | rfl
  · exact (highDigit_spec value).1
  · exact (lowDigit_spec value).1

private theorem length_hexText (bytes : List UInt8) :
    (hexText bytes).length = 2 * bytes.length := by
  induction bytes with
  | nil => rfl
  | cons value bytes ih =>
      simp only [hexText, List.flatMap_cons, List.length_append, List.length_cons] at ih ⊢
      simp only [ih, List.length_nil]
      omega

theorem visible_append (text more : List Char) :
    Parser.visible (text ++ more) = Parser.visible text ++ Parser.visible more :=
  List.filter_append _ _

theorem visible_digits {text : List Char} (h : ∀ ch ∈ text, ch ∈ hexDigits) :
    Parser.visible text = text := by
  refine List.filter_eq_self.mpr fun ch hch => ?_
  rw [isSeparator_hexDigit ch (h ch hch)]
  rfl

private theorem visible_spell (k : Nat) (bytes : List UInt8) :
    Parser.visible (spell k bytes) = hexText bytes := by
  induction bytes generalizing k with
  | nil => rfl
  | cons value bytes ih =>
      have hpair : Parser.visible [highDigit value, lowDigit value] =
          [highDigit value, lowDigit value] :=
        visible_digits (by simpa [hexText] using hexText_mem [value])
      have hdash : Parser.visible (if dashAfter (k + 1) then ['-'] else []) = [] := by
        split <;> rfl
      calc Parser.visible (spell k (value :: bytes))
          = Parser.visible ([highDigit value, lowDigit value] ++
              ((if dashAfter (k + 1) then ['-'] else []) ++ spell (k + 1) bytes)) := rfl
        _ = [highDigit value, lowDigit value] ++ hexText bytes := by
            rw [visible_append, visible_append, hpair, hdash, List.nil_append, ih]

theorem UUID.ofText_string (uuid : UUID) : UUID.ofText uuid.string = .ok uuid := by
  have hvisible : Parser.visible uuid.string = hexText uuid.data.toList := by
    rw [UUID.string_eq, visible_spell]
  have hdigits : ∀ ch ∈ Parser.visible uuid.string, ch ∈ hexDigits := by
    rw [hvisible]
    exact hexText_mem _
  have hlength : (Parser.visible uuid.string).length = 32 := by
    rw [hvisible, length_hexText, Vector.length_toList]
  obtain ⟨other, hread, hother⟩ := UUID.ofText_digits hdigits hlength
  rw [hvisible, decode_hexText] at hother
  rw [hread]
  exact congrArg (Except.ok ∘ UUID.mk) (Vector.toList_inj.mp hother)

/-- Groups of 8, 4, 4, 4 and 12 hexadecimal digits with dashes between them. -/
structure IsUuidText (text : List Char) : Prop where
  groups : ∃ g₁ g₂ g₃ g₄ g₅ : List Char,
    g₁.length = 8 ∧ g₂.length = 4 ∧ g₃.length = 4 ∧ g₄.length = 4 ∧ g₅.length = 12 ∧
    (∀ ch ∈ g₁ ++ g₂ ++ g₃ ++ g₄ ++ g₅, ch ∈ hexDigits) ∧
    text = g₁ ++ '-' :: (g₂ ++ '-' :: (g₃ ++ '-' :: (g₄ ++ '-' :: g₅)))

private theorem hexText_decode {text : List Char} (htext : ∀ ch ∈ text, ch ∈ hexDigits) {n : Nat}
    (heven : text.length = 2 * n) : hexText (decode text) = text.map Char.toLower := by
  induction n generalizing text with
  | zero =>
      obtain rfl := List.length_eq_zero_iff.mp heven
      rfl
  | succ n ih =>
      match text, heven with
      | high :: low :: rest, heven =>
          simp only [List.length_cons] at heven
          have hhigh : high ∈ hexDigits := htext high (by simp)
          have hlow : low ∈ hexDigits := htext low (by simp)
          have hle := hexValue_le high hhigh
          have hle' := hexValue_le low hlow
          have hpack := toNat_pack hle hle'
          rw [UInt8.le_iff_toNat_le] at hle hle'
          simp only [UInt8.reduceToNat] at hle hle'
          have hdiv : (hexValue high * 16 + hexValue low).toNat / 16 = (hexValue high).toNat := by
            omega
          have hmod : (hexValue high * 16 + hexValue low).toNat % 16 = (hexValue low).toNat := by
            omega
          have hlength : rest.length = 2 * n := by omega
          have hrest := ih (fun ch hch => htext ch (by simp [hch])) hlength
          simp only [decode, hexText, List.flatMap_cons, List.cons_append, List.nil_append,
            List.map_cons] at hrest ⊢
          rw [highDigit_eq, lowDigit_eq, hdiv, hmod, UInt8.ofNat_toNat, UInt8.ofNat_toNat,
            digit_hexValue high hhigh, digit_hexValue low hlow, hrest]

private theorem decode_append {text : List Char} {n : Nat} (h : text.length = 2 * n)
    (more : List Char) : decode (text ++ more) = decode text ++ decode more := by
  induction n generalizing text with
  | zero =>
      obtain rfl := List.length_eq_zero_iff.mp h
      rfl
  | succ n ih =>
      match text, h with
      | high :: low :: rest, h =>
          simp only [List.length_cons] at h
          have hrest : rest.length = 2 * n := by omega
          simp [decode, ih hrest]

private theorem spell_group {k : Nat} {bytes : List UInt8} (hne : bytes ≠ [])
    (hinside : ∀ j < bytes.length, 0 < j → dashAfter (k + j) = false) :
    spell k bytes = hexText bytes ++ if dashAfter (k + bytes.length) then ['-'] else [] := by
  induction bytes generalizing k with
  | nil => contradiction
  | cons value bytes ih =>
      cases bytes with
      | nil => simp [spell, hexText]
      | cons next bytes =>
          have hfirst : dashAfter (k + 1) = false := hinside 1 (by simp) (by omega)
          have hrest := ih (k := k + 1) (by simp) fun j hj hpos => by
            have := hinside (j + 1) (by simpa using hj) (by omega)
            rwa [show k + 1 + j = k + (j + 1) by omega]
          rw [spell, hrest, hfirst]
          simp [hexText, Nat.add_assoc, Nat.add_comm 1]

private theorem spell_decode {group : List Char} (hgroup : ∀ ch ∈ group, ch ∈ hexDigits) (k : Nat)
    {n : Nat} (heven : group.length = 2 * n) (hpos : 0 < n)
    (hinside : ∀ j < n, 0 < j → dashAfter (k + j) = false) :
    spell k (decode group) =
      group.map Char.toLower ++ if dashAfter (k + n) then ['-'] else [] := by
  have hlength := length_decode heven
  have hne : decode group ≠ [] := by
    intro hnil
    rw [hnil, List.length_nil] at hlength
    omega
  rw [spell_group hne (by rwa [hlength]), hexText_decode hgroup heven, hlength]

theorem IsUuidText.spell {text : List Char} (h : IsUuidText text) :
    (∀ ch ∈ Parser.visible text, ch ∈ hexDigits) ∧ (Parser.visible text).length = 32 ∧
      spell 0 (decode (Parser.visible text)) = text.map Char.toLower := by
  obtain ⟨g₁, g₂, g₃, g₄, g₅, h₁, h₂, h₃, h₄, h₅, hhex, rfl⟩ := h.groups
  simp only [List.mem_append] at hhex
  have d₁ : ∀ ch ∈ g₁, ch ∈ hexDigits := fun ch hch => hhex ch (by simp [hch])
  have d₂ : ∀ ch ∈ g₂, ch ∈ hexDigits := fun ch hch => hhex ch (by simp [hch])
  have d₃ : ∀ ch ∈ g₃, ch ∈ hexDigits := fun ch hch => hhex ch (by simp [hch])
  have d₄ : ∀ ch ∈ g₄, ch ∈ hexDigits := fun ch hch => hhex ch (by simp [hch])
  have d₅ : ∀ ch ∈ g₅, ch ∈ hexDigits := fun ch hch => hhex ch (by simp [hch])
  have hdash (rest : List Char) : Parser.visible ('-' :: rest) = Parser.visible rest := rfl
  have hvisible : Parser.visible (g₁ ++ '-' :: (g₂ ++ '-' :: (g₃ ++ '-' :: (g₄ ++ '-' :: g₅)))) =
      g₁ ++ (g₂ ++ (g₃ ++ (g₄ ++ g₅))) := by
    simp only [visible_append, hdash, visible_digits d₁, visible_digits d₂, visible_digits d₃,
      visible_digits d₄, visible_digits d₅]
  rw [hvisible]
  refine ⟨fun ch hch => hhex ch (by simpa [or_assoc] using hch), by simp [*], ?_⟩
  have s₁ := spell_decode d₁ 0 (n := 4) h₁ (by decide) (by decide)
  have s₂ := spell_decode d₂ 4 (n := 2) h₂ (by decide) (by decide)
  have s₃ := spell_decode d₃ 6 (n := 2) h₃ (by decide) (by decide)
  have s₄ := spell_decode d₄ 8 (n := 2) h₄ (by decide) (by decide)
  have s₅ := spell_decode d₅ 10 (n := 6) h₅ (by decide) (by decide)
  rw [decode_append (n := 4) h₁, decode_append (n := 2) h₂, decode_append (n := 2) h₃,
    decode_append (n := 2) h₄]
  simp only [spell_append, length_decode (n := 4) h₁, length_decode (n := 2) h₂,
    length_decode (n := 2) h₃, length_decode (n := 2) h₄]
  rw [s₁, s₂, s₃, s₄, s₅]
  simp [dashAfter]

/--
Printing and parsing are inverse to each other: every array of 16 bytes is read back from
its text, and every text is printed again in lower case.
-/
theorem uuid_text_round_trip :
    (∀ data : Vector UInt8 16, UUID.ofText (UUID.string ⟨data⟩) = .ok ⟨data⟩) ∧
      ∀ text : List Char, IsUuidText text →
        ∃ uuid, UUID.ofText text = .ok uuid ∧ uuid.string = text.map Char.toLower := by
  refine ⟨fun data => UUID.ofText_string ⟨data⟩, fun text htext => ?_⟩
  obtain ⟨hdigits, hlength, hspell⟩ := htext.spell
  obtain ⟨uuid, hread, hdata⟩ := UUID.ofText_digits hdigits hlength
  refine ⟨uuid, hread, ?_⟩
  rw [UUID.string_eq, hdata, hspell]

theorem uuid_text_round_trip_mixed_case :
    ∃ uuid, UUID.ofText "01234567-89aB-cDeF-FEDC-ba9876543210".toList = .ok uuid ∧
      uuid.string = "01234567-89ab-cdef-fedc-ba9876543210".toList :=
  uuid_text_round_trip.2 "01234567-89aB-cDeF-FEDC-ba9876543210".toList
    ⟨"01234567".toList, "89aB".toList, "cDeF".toList, "FEDC".toList, "ba9876543210".toList,
      rfl, rfl, rfl, rfl, rfl, List.all_iff_forall_prop.mp (by decide), rfl⟩

end AsioWrapper.Utils
