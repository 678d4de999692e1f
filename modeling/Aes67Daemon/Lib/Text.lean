import Mathlib.Data.Char
import Mathlib.Data.List.Basic
import Mathlib.Data.List.Lex
import Mathlib.Data.List.TakeWhile
import Mathlib.Data.UInt

/-!
# Byte strings and the numbers written in them

`Text` is a `std::string`: a list of characters, each standing for one byte.
The functions follow the C++ library functions of the same name.  A conversion
that throws is `none`, whichever exception it throws.

## Main definitions

* `trim`, `splitBy`, `getLines`, `breakAt`, `cStr` — taking text apart.
* `ofNat` — decimal printing.
* `strtol`, `stoi`, `stoul`, `atoi` — reading an integer off the front of a text.
* `spelled` — the number that a text of a floating-point number spells.
-/
namespace Aes67Daemon

/-- A byte string. -/
abbrev Text := List Char

namespace Text

/-! ## Taking text apart -/

/-- The characters `isspace` accepts in the C locale. -/
def isSpace (c : Char) : Bool :=
  c = ' ' || c = '\t' || c = '\n' || c = '\x0b' || c = '\x0c' || c = '\r'

/-- Drop leading white space. -/
def trimLeft (t : Text) : Text := t.dropWhile isSpace

/-- `boost::trim`: drop white space at both ends. -/
def trim (t : Text) : Text := (trimLeft (trimLeft t).reverse).reverse

/-- `boost::split` without token compression: adjacent separators enclose an empty
field, and the empty text has one empty field. -/
def splitBy (p : Char → Bool) (t : Text) : List Text := t.splitOnP p

/-- The lines a `getline` loop delivers.  A newline at the end of the text does
not start another line. -/
def getLines (t : Text) : List Text :=
  let ls := t.splitOn '\n'
  if ls.getLast? = some [] then ls.dropLast else ls

/-- The text before and after the first occurrence of a character. -/
def breakAt (c : Char) : Text → Option (Text × Text)
  | [] => none
  | d :: t => if d = c then some ([], t) else (breakAt c t).map fun r => (d :: r.1, r.2)

/-- The text up to the first NUL. -/
def upToNul (t : Text) : Text := t.takeWhile (· ≠ '\x00')

/-- What `strncpy` leaves in a zeroed buffer of `size` bytes whose last byte it
must not touch, read back as a C string. -/
def cStr (size : ℕ) (t : Text) : Text := (upToNul t).take (size - 1)

/-- The character in lower case, for the ASCII letters. -/
def toLower (t : Text) : Text := t.map Char.toLower

/-! ## Integers -/

/-- The decimal digits of a number. -/
def ofNat (n : ℕ) : Text := Nat.toDigits 10 n

/-- The value of a text of decimal digits. -/
def digitsValue (t : Text) : ℕ := Nat.ofDigitChars 10 t 0

/-- Split off an optional sign; `true` is minus. -/
def sign : Text → Bool × Text
  | '-' :: t => (true, t)
  | '+' :: t => (false, t)
  | t => (false, t)

/-- An optional sign and decimal digits after white space: the sign and the
magnitude; `none` when there is no digit. -/
def readInt (t : Text) : Option (Bool × ℕ) :=
  let (neg, t) := sign (trimLeft t)
  let ds := t.takeWhile Char.isDigit
  if ds = [] then none else some (neg, digitsValue ds)

/-- `std::stoi`. -/
def stoi (t : Text) : Option ℤ :=
  (readInt t).bind fun (neg, n) =>
    let z : ℤ := if neg then -n else n
    if -2147483648 ≤ z ∧ z ≤ 2147483647 then some z else none

/-- `std::stoll`. -/
def stoll (t : Text) : Option ℤ :=
  (readInt t).bind fun (neg, n) =>
    let z : ℤ := if neg then -n else n
    if -9223372036854775808 ≤ z ∧ z ≤ 9223372036854775807 then some z else none

/-- `std::stoul` and `std::stoull` where `unsigned long` has 64 bits: a minus sign
negates the value modulo `2 ^ 64`. -/
def stoul (t : Text) : Option ℕ :=
  (readInt t).bind fun (neg, n) =>
    if n < 2 ^ 64 then some (if neg then (2 ^ 64 - n) % 2 ^ 64 else n) else none

/-- `atoi`: zero when there is no number. -/
def atoi (t : Text) : ℤ :=
  match readInt t with
  | some (neg, n) => if neg then -n else n
  | none => 0

/-! ## Floating point -/

/-- What a text of a floating-point number spells: a fraction with its sign, or a word. -/
inductive Spelled
  | finite (neg : Bool) (num den : ℕ)
  | inf
  | nan
  deriving DecidableEq, Repr

/-- The value of a hexadecimal digit. -/
def hexDigit (c : Char) : Option ℕ :=
  if c.isDigit then some (c.toNat - '0'.toNat)
  else if 'a' ≤ c ∧ c ≤ 'f' then some (c.toNat - 'a'.toNat + 10)
  else if 'A' ≤ c ∧ c ≤ 'F' then some (c.toNat - 'A'.toNat + 10)
  else none

/-- The exponent after a mantissa: the marker, an optional sign and digits.  A
marker without digits is not part of the number. -/
def exponent (marker : Char) : Text → ℤ
  | c :: t =>
    if c.toLower = marker then
      match readExponent t with
      | some (neg, n) => if neg then -n else n
      | none => 0
    else 0
  | [] => 0
where
  /-- No white space is allowed before the exponent. -/
  readExponent (t : Text) : Option (Bool × ℕ) :=
    if (t.head?.map isSpace).getD false then none else readInt t

/-- The digits of a mantissa, before and after the optional point, and what
follows it. -/
def mantissa (isDigit : Char → Bool) (t : Text) : Text × Text × Text :=
  let whole := t.takeWhile isDigit
  match t.dropWhile isDigit with
  | '.' :: t => (whole, t.takeWhile isDigit, t.dropWhile isDigit)
  | t => (whole, [], t)

/-- `mant * base ^ exp` as a fraction. -/
def scaled (mant base : ℕ) (exp : ℤ) : ℕ × ℕ :=
  if 0 ≤ exp then (mant * base ^ exp.toNat, 1) else (mant, base ^ (-exp).toNat)

/-- A decimal number, or a hexadecimal one after `0x`. -/
def readFraction (t : Text) : Option (ℕ × ℕ) :=
  let hex : Option (ℕ × ℕ) :=
    match t with
    | '0' :: x :: t =>
      let (whole, frac, rest) := mantissa (fun c => (hexDigit c).isSome) t
      if x.toLower = 'x' ∧ whole ++ frac ≠ [] then
        let value := (whole ++ frac).foldl (fun v c => 16 * v + (hexDigit c).getD 0) 0
        some (scaled value 2 (exponent 'p' rest - 4 * frac.length))
      else none
    | _ => none
  match hex with
  | some r => some r
  | none =>
    let (whole, frac, rest) := mantissa Char.isDigit t
    if whole ++ frac = [] then none
    else some (scaled (digitsValue (whole ++ frac)) 10 (exponent 'e' rest - frac.length))

/-- What `strtod` takes off the front of a text; `none` when it finds no number. -/
def spelled (t : Text) : Option Spelled :=
  let (neg, t) := sign (trimLeft t)
  if (toLower t).take 3 = "inf".toList then some .inf
  else if (toLower t).take 3 = "nan".toList then some .nan
  else (readFraction t).map fun (num, den) => .finite neg num den

/-! ## Reading back what was printed -/

theorem digits_isDigit {n : ℕ} {c : Char} (h : c ∈ ofNat n) : c.isDigit = true :=
  Nat.isDigit_of_mem_toDigits (by decide) (by decide) h

@[simp] theorem ofNat_ne_nil (n : ℕ) : ofNat n ≠ [] := Nat.toDigits_ne_nil

@[simp] theorem digitsValue_ofNat (n : ℕ) : digitsValue (ofNat n) = n :=
  Nat.ofDigitChars_ten_toDigits

/-- A character that is no digit does not occur in a printed number. -/
theorem not_mem_ofNat {c : Char} (h : c.isDigit = false) (n : ℕ) : c ∉ ofNat n := by
  intro hc
  rw [digits_isDigit hc] at h
  cases h

theorem isSpace_of_isDigit {c : Char} (h : c.isDigit = true) : isSpace c = false := by
  simp only [isSpace, Bool.or_eq_false_iff, decide_eq_false_iff_not]
  refine ⟨⟨⟨⟨⟨?_, ?_⟩, ?_⟩, ?_⟩, ?_⟩, ?_⟩ <;> (rintro rfl; revert h; decide)

theorem ofNat_eq_cons (n : ℕ) : ∃ c t, ofNat n = c :: t ∧ c.isDigit = true := by
  cases h : ofNat n with
  | nil => exact absurd h (ofNat_ne_nil n)
  | cons c t => exact ⟨c, t, rfl, digits_isDigit (h ▸ List.mem_cons_self)⟩

/-- A printed number of more than one digit does not start with a zero. -/
theorem head?_ofNat {n : ℕ} (h : (ofNat n).head? = some '0') : (ofNat n).length = 1 := by
  by_cases hn : n < 10
  · rw [ofNat, Nat.toDigits_of_lt_base hn]; rfl
  · exfalso
    induction n using Nat.strong_induction_on with
    | _ n ih =>
      have hd : ofNat n = ofNat (n / 10) ++ [Nat.digitChar (n % 10)] :=
        Nat.toDigits_of_base_le (by decide) (by omega)
      obtain ⟨c, t, ht, -⟩ := ofNat_eq_cons (n / 10)
      have hhead : (ofNat (n / 10)).head? = some '0' := by
        rw [hd, ht] at h
        rw [ht]
        simpa using h
      by_cases hs : n / 10 < 10
      · have hz : ∀ m < 10, (ofNat m).head? = some '0' → m = 0 := by decide
        have := hz _ hs hhead
        omega
      · exact ih (n / 10) (by omega) hhead hs

theorem trimLeft_cons {c : Char} {t : Text} (h : isSpace c = false) : trimLeft (c :: t) = c :: t := by
  simp [trimLeft, h]

theorem sign_cons_of_isDigit {c : Char} {t : Text} (h : c.isDigit = true) :
    sign (c :: t) = (false, c :: t) := by
  unfold sign
  split
  · rename_i heq
    cases heq
    exact absurd h (by decide)
  · rename_i heq
    cases heq
    exact absurd h (by decide)
  · rfl

/-- A text whose first character, if any, is no digit. -/
def NoDigitFirst (t : Text) : Prop := ∀ c ∈ t.head?, c.isDigit = false

theorem noDigitFirst_nil : NoDigitFirst [] := by simp [NoDigitFirst]

theorem takeWhile_ofNat_append (n : ℕ) {t : Text} (h : NoDigitFirst t) :
    (ofNat n ++ t).takeWhile Char.isDigit = ofNat n := by
  rw [List.takeWhile_append_of_pos fun c hc => digits_isDigit hc]
  cases t with
  | nil => simp
  | cons c t => simp [h c rfl]

theorem dropWhile_ofNat_append (n : ℕ) {t : Text} (h : NoDigitFirst t) :
    (ofNat n ++ t).dropWhile Char.isDigit = t := by
  rw [List.dropWhile_append_of_pos fun c hc => digits_isDigit hc]
  cases t with
  | nil => simp
  | cons c t => simp [h c rfl]

/-- **A printed number is read back**, up to the first character that is no digit. -/
theorem readInt_ofNat_append (n : ℕ) {t : Text} (h : NoDigitFirst t) :
    readInt (ofNat n ++ t) = some (false, n) := by
  obtain ⟨c, s, hs, hc⟩ := ofNat_eq_cons n
  have hsign : sign (trimLeft (ofNat n ++ t)) = (false, ofNat n ++ t) := by
    rw [hs, List.cons_append, trimLeft_cons (isSpace_of_isDigit hc), sign_cons_of_isDigit hc]
  simp [readInt, hsign, takeWhile_ofNat_append n h]

theorem readInt_ofNat (n : ℕ) : readInt (ofNat n) = some (false, n) := by
  simpa using readInt_ofNat_append n noDigitFirst_nil

theorem stoi_ofNat {n : ℕ} (h : n ≤ 2147483647) : stoi (ofNat n) = some (n : ℤ) := by
  have hz : (-2147483648 : ℤ) ≤ n ∧ (n : ℤ) ≤ 2147483647 := by omega
  simp only [stoi, readInt_ofNat, Option.bind_some, Bool.false_eq_true, if_false, hz, and_self,
    if_true]

/-- **Decimal digits are read whole.** -/
theorem readInt_digits {ds : Text} (hne : ds ≠ []) (h : ∀ c ∈ ds, c.isDigit = true) :
    readInt ds = some (false, digitsValue ds) := by
  obtain ⟨c, t, rfl⟩ := List.exists_cons_of_ne_nil hne
  have hc := h c List.mem_cons_self
  have hsign : sign (trimLeft (c :: t)) = (false, c :: t) := by
    rw [trimLeft_cons (isSpace_of_isDigit hc), sign_cons_of_isDigit hc]
  have htake : (c :: t).takeWhile Char.isDigit = c :: t := List.takeWhile_eq_self_iff.mpr h
  simp [readInt, hsign, htake]

theorem stoll_digits {ds : Text} (hne : ds ≠ []) (h : ∀ c ∈ ds, c.isDigit = true) :
    stoll ds = if digitsValue ds ≤ 9223372036854775807 then some (digitsValue ds : ℤ) else none := by
  have hz : (-9223372036854775808 ≤ (digitsValue ds : ℤ) ∧
      (digitsValue ds : ℤ) ≤ 9223372036854775807) = (digitsValue ds ≤ 9223372036854775807) := by
    apply propext
    omega
  simp only [stoll, readInt_digits hne h, Option.bind_some, Bool.false_eq_true, if_false, hz]

theorem uint16_ofInt_toNat (n : UInt16) : UInt16.ofInt (n.toNat : ℤ) = n := by
  have hn := n.toNat_lt
  have hmod : ((n.toNat : ℤ) % 2 ^ 16).toNat = n.toNat := by omega
  rw [UInt16.ofInt, hmod, UInt16.ofNat_toNat]

theorem uint8_ofInt_toNat (n : UInt8) : UInt8.ofInt (n.toNat : ℤ) = n := by
  have hn := n.toNat_lt
  have hmod : ((n.toNat : ℤ) % 2 ^ 8).toNat = n.toNat := by omega
  rw [UInt8.ofInt, hmod, UInt8.ofNat_toNat]

theorem stoul_ofNat {n : ℕ} (h : n < 2 ^ 64) : stoul (ofNat n) = some n := by
  simp only [stoul, readInt_ofNat, Option.bind_some, h, if_true, Bool.false_eq_true, if_false]

/-! ## Lines and fields -/

theorem getLines_line_append {l t : Text} (h : '\n' ∉ l) :
    getLines (l ++ '\n' :: t) = l :: getLines t := by
  have hs : (l ++ '\n' :: t).splitOn '\n' = l :: t.splitOn '\n' :=
    List.splitOn_append_cons_self_of_not_mem h t
  have hne : t.splitOn '\n' ≠ [] := List.splitOn_ne_nil _ _
  obtain ⟨x, xs, hx⟩ := List.exists_cons_of_ne_nil hne
  simp only [getLines, hs, hx, List.getLast?_cons_cons]
  split <;> simp

theorem not_mem_splitOn {t l : Text} (h : l ∈ t.splitOn '\n') : '\n' ∉ l := by
  unfold List.splitOn at h
  induction t generalizing l with
  | nil =>
      rw [List.splitOnP_nil] at h
      rw [List.mem_singleton.mp h]
      exact List.not_mem_nil
  | cons c t ih =>
      rw [List.splitOnP_cons_eq_if_modifyHead] at h
      split at h
      · rcases List.mem_cons.mp h with rfl | h
        · exact List.not_mem_nil
        · exact ih h
      · rename_i hc
        cases hls : t.splitOnP (· == '\n') with
        | nil => exact absurd hls (List.splitOnP_ne_nil _ _)
        | cons l₁ ls =>
            rw [hls] at h ih
            rcases List.mem_cons.mp h with rfl | h
            · rintro (_ | ⟨_, hl⟩)
              · exact hc rfl
              · exact ih List.mem_cons_self hl
            · exact ih (List.mem_cons_of_mem _ h)

/-- A line has no newline in it. -/
theorem not_mem_getLines {t l : Text} (h : l ∈ getLines t) : '\n' ∉ l := by
  unfold getLines at h
  dsimp only at h
  split at h
  · exact not_mem_splitOn (List.mem_of_mem_dropLast h)
  · exact not_mem_splitOn h

@[simp] theorem getLines_nil : getLines [] = [] := by
  simp [getLines]

theorem getLines_of_not_mem {t : Text} (hne : t ≠ []) (h : '\n' ∉ t) : getLines t = [t] := by
  have hs : t.splitOn '\n' = [t] := List.splitOn_eq_singleton h
  simp [getLines, hs, hne]

/-- A text is taken apart line by line. -/
@[elab_as_elim] theorem line_induction {P : Text → Prop} (last : ∀ t, '\n' ∉ t → P t)
    (line : ∀ l t, '\n' ∉ l → P t → P (l ++ '\n' :: t)) (t : Text) : P t := by
  induction hn : t.length using Nat.strong_induction_on generalizing t with
  | _ n ih =>
      by_cases hmem : '\n' ∈ t
      · obtain ⟨l, u, rfl, hl⟩ := List.eq_append_cons_of_mem hmem
        exact line l u hl (ih u.length (by simp [← hn]; omega) u rfl)
      · exact last t hmem

/-- A text without the separator is one field. -/
theorem splitBy_eq_singleton {p : Char → Bool} {t : Text} (h : ∀ c ∈ t, p c = false) :
    splitBy p t = [t] := List.splitOnP_eq_singleton h

/-- A text without separators is one field. -/
theorem isField_of_any {p : Char → Bool} {t : Text} (h : t.any p = false) : ∀ d ∈ t, p d = false :=
  fun d hd => Bool.eq_false_iff.mpr (List.any_eq_false.mp h d hd)

/-- The first field ends at the first separator. -/
theorem splitBy_append_cons {p : Char → Bool} {t u : Text} {c : Char} (h : ∀ d ∈ t, p d = false)
    (hc : p c = true) : splitBy p (t ++ c :: u) = t :: splitBy p u := by
  simp only [splitBy]
  rw [List.splitOnP_append_cons _ _ hc, List.splitOnP_eq_singleton h, List.singleton_append]

theorem splitBy_eq_cons_cons {c : Char} {t f g : Text} {fs : List Text}
    (h : splitBy (· = c) t = f :: g :: fs) :
    ∃ u, t = f ++ c :: u ∧ c ∉ f ∧ splitBy (· = c) u = g :: fs := by
  have hp : ∀ l : Text, c ∉ l → ∀ d ∈ l, decide (d = c) = false := fun l hl d hd =>
    decide_eq_false fun hdc => hl (hdc ▸ hd)
  by_cases hmem : c ∈ t
  · obtain ⟨l, u, rfl, hl⟩ := List.eq_append_cons_of_mem hmem
    rw [splitBy_append_cons (hp l hl) (by simp), List.cons.injEq] at h
    obtain ⟨rfl, hu⟩ := h
    exact ⟨u, rfl, hl, hu⟩
  · rw [splitBy_eq_singleton (hp t hmem)] at h
    cases h

theorem breakAt_append {c : Char} {t u : Text} (h : c ∉ t) :
    breakAt c (t ++ c :: u) = some (t, u) := by
  induction t with
  | nil => simp [breakAt]
  | cons d t ih =>
      have hd : d ≠ c := fun hd => h (hd ▸ List.mem_cons_self)
      simp [breakAt, hd, ih fun hc => h (List.mem_cons_of_mem _ hc)]

theorem breakAt_of_notMem {c : Char} {t : Text} (h : c ∉ t) : breakAt c t = none := by
  induction t with
  | nil => rfl
  | cons d t ih =>
      have hd : d ≠ c := fun hd => h (hd ▸ List.mem_cons_self)
      simp [breakAt, hd, ih fun hc => h (List.mem_cons_of_mem _ hc)]

theorem breakAt_eq_some {c : Char} {t u v : Text} (h : breakAt c t = some (u, v)) :
    t = u ++ c :: v := by
  induction t generalizing u with
  | nil => cases h
  | cons d t ih =>
      rw [breakAt] at h
      split at h
      · rename_i hd
        cases h
        rw [hd, List.nil_append]
      · obtain ⟨⟨u', v'⟩, hbreak, heq⟩ := Option.map_eq_some_iff.mp h
        cases heq
        rw [ih hbreak, List.cons_append]

/-- A text that neither starts nor ends with white space is not changed by `trim`. -/
theorem trim_eq_self {c d : Char} {t u : Text} (h : c :: t = u ++ [d]) (hc : isSpace c = false)
    (hd : isSpace d = false) : trim (c :: t) = c :: t := by
  rw [trim, trimLeft_cons hc, h, List.reverse_append, List.reverse_singleton,
    List.singleton_append, trimLeft_cons hd]
  simp

/-- A text whose last character is no white space. -/
def NoSpaceLast (t : Text) : Prop := ∃ d, t.getLast? = some d ∧ isSpace d = false

theorem NoSpaceLast.append {u : Text} (h : NoSpaceLast u) (t : Text) : NoSpaceLast (t ++ u) := by
  obtain ⟨d, hd, hs⟩ := h
  exact ⟨d, by rw [List.getLast?_append, hd]; rfl, hs⟩

theorem NoSpaceLast.cons {u : Text} (h : NoSpaceLast u) (c : Char) : NoSpaceLast (c :: u) :=
  h.append [c]

theorem noSpaceLast_ofNat (n : ℕ) : NoSpaceLast (ofNat n) :=
  ⟨_, List.getLast?_eq_some_getLast (ofNat_ne_nil n),
    isSpace_of_isDigit (digits_isDigit (List.getLast_mem (ofNat_ne_nil n)))⟩

theorem trim_of_noSpaceLast {c : Char} {t : Text} (hc : isSpace c = false)
    (h : NoSpaceLast (c :: t)) : trim (c :: t) = c :: t := by
  obtain ⟨d, hd, hs⟩ := h
  obtain ⟨u, hu⟩ := List.getLast?_eq_some_iff.mp hd
  exact trim_eq_self hu hc hs

/-! ## Buffers -/

theorem upToNul_eq_self_iff {t : Text} : upToNul t = t ↔ '\x00' ∉ t := by
  constructor
  · intro h hnul
    have hall := List.takeWhile_eq_self_iff.mp h '\x00' hnul
    exact absurd hall (by decide)
  · intro hnul
    refine List.takeWhile_eq_self_iff.mpr fun c hc => ?_
    have hne : c ≠ '\x00' := fun h => hnul (h ▸ hc)
    simpa using hne

/-- A buffer keeps a text that has no NUL and leaves room for one. -/
theorem cStr_eq_self_iff {size : ℕ} {t : Text} : cStr size t = t ↔ '\x00' ∉ t ∧ t.length ≤ size - 1 := by
  constructor
  · intro h
    have hprefix : cStr size t <+: upToNul t := List.take_prefix _ _
    rw [h] at hprefix
    have hwhole : upToNul t = t := (List.takeWhile_prefix _).eq_of_length_le hprefix.length_le
    have hlength := congrArg List.length h
    rw [cStr, hwhole, List.length_take] at hlength
    exact ⟨upToNul_eq_self_iff.mp hwhole, by omega⟩
  · rintro ⟨hnul, hlength⟩
    rw [cStr, upToNul_eq_self_iff.mpr hnul, List.take_of_length_le hlength]

theorem cStr_cStr (size : ℕ) (t : Text) : cStr size (cStr size t) = cStr size t := by
  refine cStr_eq_self_iff.mpr ⟨fun hnul => ?_, List.length_take_le _ _⟩
  have hall := List.mem_takeWhile_imp (List.mem_of_mem_take hnul)
  exact absurd hall (by decide)

/-! ## Narrowing -/

theorem toNat_uint8_ofInt (z : ℤ) : ((UInt8.ofInt z).toNat : ℤ) = z % 256 := by
  rw [UInt8.ofInt, UInt8.toNat_ofNat']
  omega

theorem toNat_uint16_ofInt (z : ℤ) : ((UInt16.ofInt z).toNat : ℤ) = z % 65536 := by
  rw [UInt16.ofInt, UInt16.toNat_ofNat']
  omega

end Text
end Aes67Daemon
