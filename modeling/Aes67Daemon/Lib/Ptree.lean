import Aes67Daemon.Lib.JsonText

/-!
# Values in a property tree

How Boost takes a value of some type from the text of a node: a stream extracts it, and
it is there if nothing but white space follows.  A path of keys leads to the first child
of each name.

## Main definitions

* `extractInt`, `extractUnsigned`, `extractBool` — what a stream extracts from a text.
* `Ptree.at?` — the node at a path.
* `Ptree.getInt?`, `Ptree.getLong?`, `Ptree.getUInt8?`, `Ptree.getUInt16?`, `Ptree.getUInt32?`,
  `Ptree.getBool?` — the value of a node.
-/
namespace Aes67Daemon

open Text

/-! ## Extraction -/

/-- An integer that takes up a text except for white space around it, as a stream
extracts it. -/
def extractInt (t : Text) : Option ℤ :=
  let (neg, t) := sign (trimLeft t)
  let ds := t.takeWhile Char.isDigit
  if ds = [] ∨ trimLeft (t.dropWhile Char.isDigit) ≠ [] then none
  else some (if neg then -(digitsValue ds : ℤ) else digitsValue ds)

/-- An unsigned number up to `max` in the same way; a minus sign takes the number from zero,
modulo the size of the type. -/
def extractUnsigned (max : ℕ) (t : Text) : Option ℕ :=
  let (neg, t) := sign (trimLeft t)
  let ds := t.takeWhile Char.isDigit
  if ds = [] ∨ trimLeft (t.dropWhile Char.isDigit) ≠ [] ∨ max < digitsValue ds then none
  else some (if neg then (max + 1 - digitsValue ds) % (max + 1) else digitsValue ds)

/-- A boolean, as `0`, `1`, `false` or `true`: where the stream fails to extract a number,
it goes on from what it has consumed and expects a name. -/
def extractBool (t : Text) : Option Bool :=
  let (neg, t) := sign (trimLeft t)
  let ds := t.takeWhile Char.isDigit
  let rest := t.dropWhile Char.isDigit
  if ds ≠ [] ∧ digitsValue ds ≤ 1 ∧ ¬ (neg ∧ digitsValue ds = 1) then
    if trimLeft rest = [] then some (digitsValue ds = 1) else none
  else if trim rest = "true".toList then some true
  else if trim rest = "false".toList then some false
  else none

/-- **An integer is extracted from its digits.** -/
theorem extractInt_printInt (z : ℤ) : extractInt (Json.printInt z) = some z := by
  have htake := takeWhile_ofNat_append z.natAbs noDigitFirst_nil
  have hdrop := dropWhile_ofNat_append z.natAbs noDigitFirst_nil
  rw [List.append_nil] at htake hdrop
  have hread : ∀ neg u, sign (trimLeft u) = (neg, ofNat z.natAbs) →
      extractInt u = some (if neg then -(z.natAbs : ℤ) else z.natAbs) := by
    intro neg u hsign
    rw [extractInt, hsign]
    simp only [htake, hdrop, digitsValue_ofNat]
    exact if_neg (by simp [trimLeft])
  unfold Json.printInt
  split
  · rename_i hneg
    rw [hread true _ rfl]
    exact congrArg some (by simp only [if_true]; omega)
  · rename_i hpos
    obtain ⟨c, t, hct, hc⟩ := ofNat_eq_cons z.natAbs
    have hsign : sign (trimLeft (ofNat z.natAbs)) = (false, ofNat z.natAbs) := by
      rw [hct, trimLeft_cons (isSpace_of_isDigit hc), sign_cons_of_isDigit hc]
    rw [hread false _ hsign]
    exact congrArg some (by simp only [Bool.false_eq_true, if_false]; omega)

theorem extractUnsigned_ofNat {max n : ℕ} (hn : n ≤ max) : extractUnsigned max (ofNat n) = some n := by
  have htake := takeWhile_ofNat_append n noDigitFirst_nil
  have hdrop := dropWhile_ofNat_append n noDigitFirst_nil
  rw [List.append_nil] at htake hdrop
  obtain ⟨c, t, hct, hc⟩ := ofNat_eq_cons n
  have hsign : sign (trimLeft (ofNat n)) = (false, ofNat n) := by
    rw [hct, trimLeft_cons (isSpace_of_isDigit hc), sign_cons_of_isDigit hc]
  rw [extractUnsigned, hsign]
  simp only [htake, hdrop, digitsValue_ofNat]
  rw [if_neg (by simp [trimLeft, hn])]
  rfl

namespace Ptree

/-- `get_value_optional<int>`. -/
def getInt? (t : Ptree) : Option ℤ :=
  (extractInt t.data).filter fun z => -2147483648 ≤ z ∧ z ≤ 2147483647

/-- `get_value_optional<long>`. -/
def getLong? (t : Ptree) : Option ℤ :=
  (extractInt t.data).filter fun z => -9223372036854775808 ≤ z ∧ z ≤ 9223372036854775807

/-- `get_value_optional<uint8_t>`, by way of `unsigned`. -/
def getUInt8? (t : Ptree) : Option UInt8 :=
  ((extractUnsigned 4294967295 t.data).filter fun n => n ≤ 255).map UInt8.ofNat

/-- `get_value_optional<uint16_t>`. -/
def getUInt16? (t : Ptree) : Option UInt16 := (extractUnsigned 65535 t.data).map UInt16.ofNat

/-- `get_value_optional<uint32_t>`. -/
def getUInt32? (t : Ptree) : Option UInt32 := (extractUnsigned 4294967295 t.data).map UInt32.ofNat

/-- `get_value_optional<bool>`. -/
def getBool? (t : Ptree) : Option Bool := extractBool t.data

/-- The node at a path. -/
def at? : Ptree → List Text → Option Ptree
  | t, [] => some t
  | t, key :: path => (t.child? key).bind fun c => c.at? path

/-- The text of an integer is that integer. -/
theorem getInt?_printInt {z : ℤ} (hmin : -2147483648 ≤ z) (hmax : z ≤ 2147483647) :
    (leaf (Json.printInt z)).getInt? = some z := by
  rw [getInt?, data_leaf, extractInt_printInt]
  exact Option.filter_eq_some_iff.mpr ⟨rfl, by simp [hmin, hmax]⟩

end Ptree
end Aes67Daemon
