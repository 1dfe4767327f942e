import Mathlib.Tactic.IntervalCases
import AsioWrapper.Utils.Uuid

/-!
# What the UUID parser accepts

The parser looks at pairs of the characters that are not separators, sixteen
pairs at most, and at nothing else: a last character without a partner is
never examined.  So the three textual constructors, of which one hands over
the terminating NUL as well, do not always agree.
-/

namespace AsioWrapper.Utils

/-! ## Digits and other characters -/

def hexNumber (ch : Char) : Nat := digits.idxOf ch.toLower

private theorem toNat_hexValue : ∀ ch ∈ hexDigits, (hexValue ch).toNat = hexNumber ch :=
  List.all_iff_forall_prop.mp (by decide)

private theorem mem_hexDigits_of_range {low high : Char} {ch : Char}
    (hlow : low ≤ ch) (hhigh : ch ≤ high)
    (hrange : ∀ n, low.toNat ≤ n → n ≤ high.toNat → Char.ofNat n ∈ hexDigits) :
    ch ∈ hexDigits := by
  have hmem := hrange ch.toNat (Char.le_def.mp hlow) (Char.le_def.mp hhigh)
  rwa [Char.ofNat_toNat] at hmem

private theorem unhex_other {ch : Char} (h : ch ∉ hexDigits) :
    unhex ch = .error (.domain "Invalid UUID character") := by
  have hdecimal : ¬('0' ≤ ch ∧ ch ≤ '9') := by
    rintro ⟨hlow, hhigh⟩
    refine h (mem_hexDigits_of_range hlow hhigh fun n hn hn' => ?_)
    change 48 ≤ n at hn
    change n ≤ 57 at hn'
    interval_cases n <;> decide
  have hlower : ¬('a' ≤ ch ∧ ch ≤ 'f') := by
    rintro ⟨hlow, hhigh⟩
    refine h (mem_hexDigits_of_range hlow hhigh fun n hn hn' => ?_)
    change 97 ≤ n at hn
    change n ≤ 102 at hn'
    interval_cases n <;> decide
  have hupper : ¬('A' ≤ ch ∧ ch ≤ 'F') := by
    rintro ⟨hlow, hhigh⟩
    refine h (mem_hexDigits_of_range hlow hhigh fun n hn hn' => ?_)
    change 65 ≤ n at hn
    change n ≤ 70 at hn'
    interval_cases n <;> decide
  rw [unhex, if_neg hdecimal, if_neg hlower, if_neg hupper]

/-! ## The characters the parser examines -/

/-- The whole pairs at the front of a text, as many as `free` bytes have room for. -/
def firstPairs (free : Nat) (text : List Char) : List Char :=
  text.take (2 * min (text.length / 2) free)

theorem firstPairs_zero (text : List Char) : firstPairs 0 text = [] := by
  simp [firstPairs]

theorem firstPairs_short {text : List Char} (h : text.length < 2) (free : Nat) :
    firstPairs free text = [] := by
  have hnone : text.length / 2 = 0 := by omega
  simp [firstPairs, hnone]

theorem firstPairs_cons (free : Nat) (high low : Char) (rest : List Char) :
    firstPairs (free + 1) (high :: low :: rest) = high :: low :: firstPairs free rest := by
  have hpairs : 2 * min ((high :: low :: rest).length / 2) (free + 1) =
      2 * min (rest.length / 2) free + 1 + 1 := by
    simp only [List.length_cons]
    omega
  rw [firstPairs, hpairs, List.take_succ_cons, List.take_succ_cons, firstPairs]

theorem length_lt_two {text : List Char}
    (h : ∀ high low rest, text = high :: low :: rest → False) : text.length < 2 := by
  match text with
  | [] => simp
  | [_] => simp
  | high :: low :: rest => exact (h high low rest rfl).elim

theorem length_firstPairs (free : Nat) (text : List Char) :
    (firstPairs free text).length = 2 * min (text.length / 2) free := by
  simp only [firstPairs, List.length_take]
  omega

structure Parser.Stored (p : Parser) (bytes : List UInt8) : Prop where
  index : p.index = bytes.length
  data : p.data.toList = bytes ++ List.replicate (16 - bytes.length) 0

theorem Parser.Holds.stored {p : Parser} {bytes : List UInt8} (h : p.Holds bytes) :
    p.Stored bytes :=
  ⟨h.index, h.data⟩

/-- A character without a partner is kept and never examined. -/
theorem Parser.read_short {text : List Char} (hshort : text.length < 2)
    (hvisible : ∀ ch ∈ text, isSeparator ch = false) {p : Parser} {bytes : List UInt8}
    (h : p.Holds bytes) : ∃ p', p.read text = .ok p' ∧ p'.Stored bytes := by
  match text, hshort with
  | [], _ => exact ⟨p, rfl, h.stored⟩
  | [ch], _ =>
      refine ⟨{ p with v1 := ch, pack := true }, ?_, h.index, h.data⟩
      simp [Parser.read, hvisible ch (by simp), h.pack]

theorem Parser.read_firstPairs {text : List Char}
    (hvisible : ∀ ch ∈ text, isSeparator ch = false) {p : Parser} {bytes : List UInt8}
    (h : p.Holds bytes) {free : Nat} (hfree : bytes.length + (free + 1) = 16)
    (hdigits : ∀ ch ∈ firstPairs (free + 1) text, ch ∈ hexDigits) :
    ∃ p', p.read text = .ok p' ∧ p'.Stored (bytes ++ decode (firstPairs (free + 1) text)) := by
  induction text using decode.induct generalizing p bytes free with
  | case1 high low rest ih =>
      rw [firstPairs_cons] at hdigits ⊢
      simp only [List.forall_mem_cons] at hdigits
      obtain ⟨hhigh, hlow, hrest⟩ := hdigits
      obtain ⟨p', hp', hread⟩ := Parser.read_pair h (by omega) hhigh hlow rest
      rw [hread, decode]
      cases free with
      | zero =>
          -- the loop is left with the sixteenth byte
          rw [if_pos (by omega), firstPairs_zero]
          exact ⟨p', rfl, hp'.stored⟩
      | succ free =>
          rw [if_neg (by omega), List.append_cons]
          apply ih (fun ch hch => hvisible ch (by simp [hch])) hp'
          · simp
            omega
          · exact hrest
  | case2 text hshort =>
      have hlength := length_lt_two hshort
      rw [firstPairs_short hlength, decode, List.append_nil]
      · exact Parser.read_short hlength hvisible h
      · intro high low rest hnil
        cases hnil

theorem Parser.read_bad_pair {p : Parser} (hpack : p.pack = false) {high low : Char}
    (hvisible : isSeparator high = false) (hvisible' : isSeparator low = false)
    (hbad : ¬(high ∈ hexDigits ∧ low ∈ hexDigits)) (rest : List Char) :
    p.read (high :: low :: rest) = .error (.domain "Invalid UUID character") := by
  simp only [Parser.read, hvisible, hvisible', hpack, Bool.false_eq_true, if_false, if_true]
  by_cases hhigh : high ∈ hexDigits
  · have hlow : low ∉ hexDigits := fun hlow => hbad ⟨hhigh, hlow⟩
    rw [unhex_hexDigit high hhigh, unhex_other hlow]
    rfl
  · rw [unhex_other hhigh]
    rfl

theorem Parser.read_firstPairs_bad {text : List Char}
    (hvisible : ∀ ch ∈ text, isSeparator ch = false) {p : Parser} {bytes : List UInt8}
    (h : p.Holds bytes) {free : Nat} (hfree : bytes.length + (free + 1) = 16)
    (hbad : ∃ ch ∈ firstPairs (free + 1) text, ch ∉ hexDigits) :
    p.read text = .error (.domain "Invalid UUID character") := by
  induction text using decode.induct generalizing p bytes free with
  | case1 high low rest ih =>
      by_cases hpair : high ∈ hexDigits ∧ low ∈ hexDigits
      · have hrest : ∃ ch ∈ firstPairs free rest, ch ∉ hexDigits := by
          simpa [firstPairs_cons, hpair] using hbad
        obtain ⟨p', hp', hread⟩ := Parser.read_pair h (by omega) hpair.1 hpair.2 rest
        rw [hread]
        cases free with
        | zero => simp [firstPairs_zero] at hrest
        | succ free =>
            have hfree' : (bytes ++ [hexValue high * 16 + hexValue low]).length + (free + 1) =
                16 := by
              simp
              omega
            rw [if_neg (by omega)]
            exact ih (fun ch hch => hvisible ch (by simp [hch])) hp' hfree' hrest
      · exact Parser.read_bad_pair h.pack (hvisible high (by simp)) (hvisible low (by simp))
          hpair rest
  | case2 text hshort =>
      have hlength := length_lt_two hshort
      simp [firstPairs_short hlength] at hbad

/-! ## What the constructor returns -/

private theorem fillZero_of_zeros {data : Vector UInt8 16} {index : Nat}
    (h : ∀ i (hi : i < 16), index ≤ i → data[i] = 0) : fillZero data index = data := by
  induction data, index using fillZero.induct with
  | case1 data index hindex ih =>
      have hsame : data.setIfInBounds index 0 = data := by
        refine Vector.ext fun i hi => ?_
        rw [Vector.getElem_setIfInBounds]
        split_ifs with heq
        · subst heq
          exact (h index hi (Nat.le_refl index)).symm
        · rfl
      rw [hsame] at ih
      rw [fillZero, if_pos hindex, hsame]
      exact ih fun i hi hle => h i hi (by omega)
  | case2 data index hindex => rw [fillZero, if_neg hindex]

theorem Parser.Stored.fillZero {p : Parser} {bytes : List UInt8} (h : p.Stored bytes) :
    fillZero p.data p.index = p.data := by
  apply fillZero_of_zeros
  intro i hi hle
  rw [h.index] at hle
  have hget : p.data.toList[i]? = some 0 := by
    rw [h.data, List.getElem?_append_right hle, List.getElem?_replicate, if_pos (by omega)]
  simpa [hi] using hget

/-- The characters that decide the outcome: the first pairs, sixteen at most. -/
def Parser.examined (text : List Char) : List Char := firstPairs 16 (visible text)

theorem Parser.visible_not_separator (text : List Char) :
    ∀ ch ∈ visible text, isSeparator ch = false := by
  intro ch hch
  simpa [visible] using (List.mem_filter.mp hch).2

theorem Parser.initial_holds : Parser.initial.Holds [] := ⟨rfl, rfl, rfl⟩

theorem UUID.ofText_of_digits {text : List Char}
    (hdigits : ∀ ch ∈ Parser.examined text, ch ∈ hexDigits) :
    ∃ uuid, UUID.ofText text = .ok uuid ∧
      uuid.data.toList = decode (Parser.examined text) ++
        List.replicate (16 - (decode (Parser.examined text)).length) 0 := by
  obtain ⟨p, hread, hp⟩ := Parser.read_firstPairs (Parser.visible_not_separator text)
    Parser.initial_holds (show 0 + (15 + 1) = 16 from rfl) hdigits
  rw [Parser.read_visible] at hread
  refine ⟨⟨p.data⟩, ?_, hp.data⟩
  simp [UUID.ofText, hread, bind, Except.bind, pure, Except.pure, hp.fillZero]

theorem UUID.ofText_of_other {text : List Char}
    (hbad : ∃ ch ∈ Parser.examined text, ch ∉ hexDigits) :
    UUID.ofText text = .error (.domain "Invalid UUID character") := by
  have hread := Parser.read_firstPairs_bad (Parser.visible_not_separator text)
    Parser.initial_holds (show 0 + (15 + 1) = 16 from rfl) hbad
  rw [Parser.read_visible] at hread
  simp [UUID.ofText, hread, bind, Except.bind]

theorem UUID.ofText_cases (text : List Char) :
    (∃ uuid, (∀ ch ∈ Parser.examined text, ch ∈ hexDigits) ∧ UUID.ofText text = .ok uuid ∧
      uuid.data.toList = decode (Parser.examined text) ++
        List.replicate (16 - (decode (Parser.examined text)).length) 0) ∨
      (∃ ch ∈ Parser.examined text, ch ∉ hexDigits) ∧
        UUID.ofText text = .error (.domain "Invalid UUID character") := by
  by_cases hdigits : ∀ ch ∈ Parser.examined text, ch ∈ hexDigits
  · obtain ⟨uuid, hread, hdata⟩ := UUID.ofText_of_digits hdigits
    exact .inl ⟨uuid, hdigits, hread, hdata⟩
  · have hbad : ∃ ch ∈ Parser.examined text, ch ∉ hexDigits := by
      simpa using hdigits
    exact .inr ⟨hbad, UUID.ofText_of_other hbad⟩

private theorem getElem?_decode {text : List Char} {n : Nat} (h : text.length = 2 * n) {i : Nat}
    (hi : i < n) :
    (decode text)[i]? =
      some (hexValue (text.getD (2 * i) '\x00') * 16 +
        hexValue (text.getD (2 * i + 1) '\x00')) := by
  induction n generalizing text i with
  | zero => omega
  | succ n ih =>
      match text, h with
      | high :: low :: rest, h =>
          simp only [List.length_cons] at h
          cases i with
          | zero => simp [decode]
          | succ i =>
              have hlength : rest.length = 2 * n := by omega
              have hrest := ih hlength (show i < n by omega)
              simpa [decode, Nat.mul_add] using hrest

theorem getD_firstPairs {free i : Nat} {text : List Char}
    (hi : i < 2 * min (text.length / 2) free) (ch : Char) :
    (firstPairs free text).getD i ch = text.getD i ch := by
  simp [firstPairs, List.getD, hi]

private theorem getD_mem_firstPairs {free i : Nat} {text : List Char}
    (hi : i < 2 * min (text.length / 2) free) (ch : Char) :
    text.getD i ch ∈ firstPairs free text := by
  have hlength : i < (firstPairs free text).length := by rwa [length_firstPairs]
  have hmem := List.getElem_mem hlength
  rwa [← getD_firstPairs hi, List.getD, List.getElem?_eq_getElem hlength]

private theorem toNat_byte_of_digits {text : List Char} {bytes : List UInt8}
    (hdigits : ∀ ch ∈ firstPairs 16 text, ch ∈ hexDigits)
    (hbytes : bytes = decode (firstPairs 16 text) ++
      List.replicate (16 - (decode (firstPairs 16 text)).length) 0)
    {i : Nat} (hi : i < 16) :
    bytes[i]?.map UInt8.toNat = some (
      if i < min (text.length / 2) 16 then
        16 * hexNumber (text.getD (2 * i) '\x00') + hexNumber (text.getD (2 * i + 1) '\x00')
      else 0) := by
  have hlength := length_decode (length_firstPairs 16 text)
  split_ifs with hfront
  · have hhigh := hdigits _ (getD_mem_firstPairs (i := 2 * i) (by omega) '\x00')
    have hlow := hdigits _ (getD_mem_firstPairs (i := 2 * i + 1) (by omega) '\x00')
    rw [hbytes, List.getElem?_append_left (by omega),
      getElem?_decode (length_firstPairs 16 text) hfront,
      getD_firstPairs (by omega), getD_firstPairs (by omega), Option.map_some,
      toNat_pack (hexValue_le _ hhigh) (hexValue_le _ hlow), toNat_hexValue _ hhigh,
      toNat_hexValue _ hlow]
  · rw [hbytes, List.getElem?_append_right (by omega), List.getElem?_replicate,
      if_pos (by omega)]
    rfl

/-! ## The constructor with its writes checked -/

/-- What ends the constructor early: an exception, or a write outside of the array. -/
inductive Fault where
  | thrown (exception : Exception)
  | outOfBounds (index : Nat)
  deriving DecidableEq, Repr

def checkedWrite (data : Vector UInt8 16) (index : Nat) (value : UInt8) :
    Except Fault (Vector UInt8 16) :=
  if h : index < 16 then .ok (data.set index value h) else .error (.outOfBounds index)

def Parser.storeChecked (p : Parser) (value : UInt8) : Except Fault Parser := do
  let data ← checkedWrite p.data p.index value
  pure { p with pack := false, index := p.index + 1, data := data }

def Parser.readChecked (p : Parser) : List Char → Except Fault Parser
  | [] => .ok p
  | ch :: rest =>
      if isSeparator ch then p.readChecked rest
      else if p.pack then do
        let ui1 ← (unhex p.v1).mapError Fault.thrown
        let ui2 ← (unhex ch).mapError Fault.thrown
        if ui1 > 15 ∨ ui2 > 15 then throw (.thrown (.argument "Invalid UUID literal"))
        let p ← p.storeChecked (ui1 * 16 + ui2)
        if p.index ≥ 16 then pure p else p.readChecked rest
      else { p with v1 := ch, pack := true }.readChecked rest

def fillZeroChecked (data : Vector UInt8 16) (index : Nat) : Except Fault (Vector UInt8 16) :=
  if index < 16 then do
    let data ← checkedWrite data index 0
    fillZeroChecked data (index + 2)
  else .ok data
  termination_by 16 - index

def UUID.ofTextChecked (text : List Char) : Except Fault UUID := do
  let p ← Parser.initial.readChecked text
  let data ← fillZeroChecked p.data p.index
  pure ⟨data⟩

theorem checkedWrite_eq {data : Vector UInt8 16} {index : Nat} (h : index < 16)
    (value : UInt8) : checkedWrite data index value = .ok (data.setIfInBounds index value) := by
  rw [checkedWrite, dif_pos h]
  refine congrArg Except.ok (Vector.ext fun i hi => ?_)
  rw [Vector.getElem_set, Vector.getElem_setIfInBounds]

theorem Parser.storeChecked_eq {p : Parser} (h : p.index < 16) (value : UInt8) :
    p.storeChecked value = .ok (p.store value) := by
  rw [Parser.storeChecked, checkedWrite_eq h]
  rfl

theorem mapError_ok {ε ε' α : Type} (f : ε → ε') (a : α) :
    (Except.ok a : Except ε α).mapError f = .ok a := rfl

/-- The loop is left before its index reaches the end of the array. -/
theorem Parser.readChecked_eq (text : List Char) {p : Parser} (h : p.index < 16) :
    p.readChecked text = (p.read text).mapError Fault.thrown := by
  induction text generalizing p with
  | nil => rfl
  | cons ch rest ih =>
      by_cases hsep : isSeparator ch = true
      · simp only [Parser.readChecked, Parser.read, if_pos hsep]
        exact ih h
      by_cases hpack : p.pack = true
      · simp only [Parser.readChecked, Parser.read, if_neg hsep, if_pos hpack]
        cases hhigh : unhex p.v1 with
        | error e => rfl
        | ok ui1 =>
            cases hlow : unhex ch with
            | error e => rfl
            | ok ui2 =>
                simp only [mapError_ok, bind, Except.bind, Parser.storeChecked_eq h]
                by_cases hlarge : ui1 > 15 ∨ ui2 > 15
                · simp only [if_pos hlarge]
                  rfl
                -- the index is below the end again wherever the loop goes on
                by_cases hfull : (p.store (ui1 * 16 + ui2)).index ≥ 16
                · simp only [if_neg hlarge, if_pos hfull]
                  rfl
                · simp only [if_neg hlarge, if_neg hfull]
                  apply ih
                  omega
      · simp only [Parser.readChecked, Parser.read, if_neg hsep, if_neg hpack]
        exact ih h

private theorem fillZeroChecked_eq (data : Vector UInt8 16) (index : Nat) :
    fillZeroChecked data index = .ok (fillZero data index) := by
  induction data, index using fillZero.induct with
  | case1 data index hindex ih =>
      rw [fillZeroChecked, fillZero, if_pos hindex, if_pos hindex, checkedWrite_eq hindex]
      exact ih
  | case2 data index hindex =>
      rw [fillZeroChecked, fillZero, if_neg hindex, if_neg hindex]

theorem UUID.ofTextChecked_eq (text : List Char) :
    UUID.ofTextChecked text = (UUID.ofText text).mapError Fault.thrown := by
  have hread := Parser.readChecked_eq text (p := Parser.initial) (by decide)
  rw [UUID.ofTextChecked, UUID.ofText, hread]
  cases Parser.initial.read text with
  | error e => rfl
  | ok p =>
      simp only [Except.mapError, bind, Except.bind, fillZeroChecked_eq, pure, Except.pure]

/--
What the parser accepts and computes.  Of the characters that are no separators, the whole
pairs that fit into sixteen bytes are examined; one of them that is no hexadecimal digit is
the only cause of an exception.  With every write checked the constructor does the same, so
no write misses the array.
-/
theorem uuid_parser_accepts (text : List Char) :
    ((∃ e, UUID.ofText text = .error e) ↔
      ∃ ch ∈ (Parser.visible text).take (2 * min ((Parser.visible text).length / 2) 16),
        ch ∉ hexDigits) ∧
    (∀ e, UUID.ofText text = .error e → ∃ message, e = .domain message) ∧
    (∀ uuid, UUID.ofText text = .ok uuid → ∀ i : Fin 16, uuid.data[i].toNat =
      if i < min ((Parser.visible text).length / 2) 16 then
        16 * hexNumber ((Parser.visible text).getD (2 * i) '\x00') +
          hexNumber ((Parser.visible text).getD (2 * i + 1) '\x00')
      else 0) ∧
    UUID.ofTextChecked text = (UUID.ofText text).mapError Fault.thrown := by
  have hchecked := UUID.ofTextChecked_eq text
  obtain ⟨uuid, hdigits, hread, hdata⟩ | ⟨hbad, hread⟩ := UUID.ofText_cases text
  · rw [hread] at hchecked ⊢
    refine ⟨⟨fun ⟨e, he⟩ => (by cases he), fun ⟨ch, hch, hother⟩ => ?_⟩,
      fun e he => (by cases he), fun uuid' heq i => ?_, hchecked⟩
    · exact absurd (hdigits ch hch) hother
    · obtain rfl : uuid = uuid' := Except.ok.inj heq
      have hbyte := toNat_byte_of_digits hdigits hdata i.isLt
      simpa using hbyte
  · rw [hread] at hchecked ⊢
    exact ⟨⟨fun _ => hbad, fun _ => ⟨_, rfl⟩⟩, fun e he => ⟨_, (Except.error.inj he).symm⟩,
      fun uuid he => (by cases he), hchecked⟩

theorem uuid_parser_accepts_short_text :
    ∃ uuid, UUID.ofText "\x7b0-aF\x7d3-1".toList = .ok uuid ∧ uuid.data[(0 : Fin 16)].toNat = 10 ∧
      uuid.data[(1 : Fin 16)].toNat = 243 ∧ uuid.data[(2 : Fin 16)].toNat = 0 := by
  have hdigits : ∀ ch ∈ Parser.examined "\x7b0-aF\x7d3-1".toList, ch ∈ hexDigits :=
    List.all_iff_forall_prop.mp (by decide)
  obtain ⟨uuid, hread, -⟩ := UUID.ofText_of_digits hdigits
  have hbytes := (uuid_parser_accepts "\x7b0-aF\x7d3-1".toList).2.2.1 uuid hread
  refine ⟨uuid, hread, ?_, ?_, ?_⟩
  · rw [hbytes 0]
    decide
  · rw [hbytes 1]
    decide
  · rw [hbytes 2]
    decide

/-! ## The textual constructors -/

/-- The template over an array of characters counts the terminating NUL. -/
def UUID.ofLiteral (text : List Char) : Except Exception UUID := UUID.ofText (text ++ ['\x00'])

def UUID.ofString (text : List Char) : Except Exception UUID := UUID.ofText text

def UUID.ofLiteralOperator (text : List Char) : Except Exception UUID := UUID.ofText text

def Agree (results : List (Except Exception UUID)) : Prop :=
  (∀ result ∈ results, ∃ e, result = .error e) ∨ ∃ uuid, ∀ result ∈ results, result = .ok uuid

theorem visible_concat_nul (text : List Char) :
    Parser.visible (text ++ ['\x00']) = Parser.visible text ++ ['\x00'] :=
  visible_append text ['\x00']

private theorem examined_concat_nul {text : List Char}
    (h : Even (Parser.visible text).length ∨ 32 ≤ (Parser.visible text).length) :
    Parser.examined (text ++ ['\x00']) = Parser.examined text := by
  have hpairs : 2 * min ((Parser.visible text ++ ['\x00']).length / 2) 16 =
      2 * min ((Parser.visible text).length / 2) 16 := by
    simp only [List.length_append, List.length_singleton, Nat.even_iff] at h ⊢
    omega
  rw [Parser.examined, visible_concat_nul, firstPairs, hpairs,
    List.take_append_of_le_length (by omega)]
  rfl

private theorem nul_mem_examined {text : List Char} (hodd : ¬Even (Parser.visible text).length)
    (hshort : ¬32 ≤ (Parser.visible text).length) :
    '\x00' ∈ Parser.examined (text ++ ['\x00']) := by
  have hwhole : (Parser.visible text ++ ['\x00']).length ≤
      2 * min ((Parser.visible text ++ ['\x00']).length / 2) 16 := by
    simp only [List.length_append, List.length_singleton, Nat.even_iff] at hodd ⊢
    omega
  rw [Parser.examined, visible_concat_nul, firstPairs, List.take_of_length_le hwhole]
  simp

theorem nul_not_hexDigit : '\x00' ∉ hexDigits := by decide

theorem UUID.ofText_congr {text other : List Char}
    (h : Parser.examined text = Parser.examined other) :
    UUID.ofText text = UUID.ofText other := by
  obtain ⟨uuid, hdigits, hread, hdata⟩ | ⟨hbad, hread⟩ := UUID.ofText_cases text
  · rw [h] at hdigits hdata
    obtain ⟨uuid', hread', hdata'⟩ := UUID.ofText_of_digits hdigits
    rw [hread, hread']
    exact congrArg (Except.ok ∘ UUID.mk) (Vector.toList_inj.mp (hdata.trans hdata'.symm))
  · rw [h] at hbad
    rw [hread, UUID.ofText_of_other hbad]

private theorem agree_same (result : Except Exception UUID) : Agree [result, result, result] := by
  cases result with
  | error e => exact .inl (by simp)
  | ok uuid => exact .inr ⟨uuid, by simp⟩

theorem not_agree (e : Exception) (uuid : UUID) (rest : List (Except Exception UUID)) :
    ¬Agree (.error e :: .ok uuid :: rest) := by
  rintro (hall | ⟨uuid', hall⟩)
  · obtain ⟨e', he'⟩ := hall (.ok uuid) (by simp)
    cases he'
  · have herror := hall (.error e) (by simp)
    cases herror

/--
The three constructors agree on a text exactly where the NUL is not examined or does not
matter: there is no character left without a partner, sixteen pairs come before it, or the
text is rejected without it.
-/
theorem uuid_constructors_agree_iff (text : List Char) :
    Agree [UUID.ofLiteral text, UUID.ofString text, UUID.ofLiteralOperator text] ↔
      Even (Parser.visible text).length ∨ 32 ≤ (Parser.visible text).length ∨
        ∃ ch ∈ (Parser.visible text).take (2 * ((Parser.visible text).length / 2)),
          ch ∉ hexDigits := by
  by_cases hsame : Even (Parser.visible text).length ∨ 32 ≤ (Parser.visible text).length
  · have hread : UUID.ofLiteral text = UUID.ofText text :=
      UUID.ofText_congr (examined_concat_nul hsame)
    rw [hread]
    exact iff_of_true (agree_same _) (by tauto)
  -- from here on the literal is rejected because of its NUL
  have hodd : ¬Even (Parser.visible text).length := fun heven => hsame (.inl heven)
  have hshort : ¬32 ≤ (Parser.visible text).length := fun hlong => hsame (.inr hlong)
  have hliteral : UUID.ofLiteral text = .error (.domain "Invalid UUID character") :=
    UUID.ofText_of_other ⟨_, nul_mem_examined hodd hshort, nul_not_hexDigit⟩
  have hexamined : Parser.examined text =
      (Parser.visible text).take (2 * ((Parser.visible text).length / 2)) := by
    rw [Parser.examined, firstPairs, min_eq_left (by omega)]
  simp only [hodd, hshort, false_or, ← hexamined, hliteral, UUID.ofString,
    UUID.ofLiteralOperator]
  obtain ⟨uuid, hdigits, hread, -⟩ | ⟨hbad, hread⟩ := UUID.ofText_cases text
  · rw [hread]
    exact iff_of_false (not_agree _ _ _) fun ⟨ch, hch, hother⟩ => hother (hdigits ch hch)
  · rw [hread]
    exact iff_of_true (agree_same _) hbad

/-- One digit is a literal that throws and a string that does not. -/
theorem uuid_constructors_disagree :
    (∃ e, UUID.ofLiteral "7".toList = .error e) ∧
      UUID.ofString "7".toList = .ok ⟨Vector.replicate 16 0⟩ ∧
      UUID.ofLiteralOperator "7".toList = .ok ⟨Vector.replicate 16 0⟩ ∧
      ¬Agree [UUID.ofLiteral "7".toList, UUID.ofString "7".toList,
        UUID.ofLiteralOperator "7".toList] := by
  have hzero : UUID.ofText "7".toList = .ok ⟨Vector.replicate 16 0⟩ := by
    have hdigits : ∀ ch ∈ Parser.examined "7".toList, ch ∈ hexDigits :=
      List.all_iff_forall_prop.mp (by decide)
    obtain ⟨uuid, hread, hdata⟩ := UUID.ofText_of_digits hdigits
    rw [hread]
    exact congrArg (Except.ok ∘ UUID.mk) (Vector.toList_inj.mp (hdata.trans rfl))
  have hthrows : UUID.ofLiteral "7".toList = .error (.domain "Invalid UUID character") :=
    UUID.ofText_of_other ⟨'\x00', by decide, nul_not_hexDigit⟩
  refine ⟨⟨_, hthrows⟩, hzero, hzero, ?_⟩
  rw [hthrows, UUID.ofString, hzero]
  exact not_agree _ _ _

end AsioWrapper.Utils
