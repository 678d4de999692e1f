import Aes67Daemon.Config.Save

/-!
# Re-reading the configuration file

The configuration file is written member by member, and what is written of a member is
read as the member's text: numbers and switches as they are, texts with their escapes
undone.  No text has undesired characters by then, so nothing is lost but the undesired
characters of the IP address.

## Main definitions

* `Setting.escapedJson` — what is written of a setting.
* `readRaw_configToJson` — the file is read as its members.
* `jsonToConfig_configToJson` — the values that are read are those that were written.
-/
namespace Aes67Daemon

open Text Json

/-! ## Texts -/

theorem isAlphanum_range {c : Char} (hc : c.isAlphanum = true) : 0x30 ≤ c.toNat ∧ c.toNat < 0x80 := by
  have hrange : ∀ low high : UInt32, 0x30 ≤ low.toNat → high.toNat < 0x80 → low ≤ c.val ∧ c.val ≤ high →
      0x30 ≤ c.toNat ∧ c.toNat < 0x80 := by
    intro low high hlow hhigh hc
    rw [UInt32.le_iff_toNat_le, UInt32.le_iff_toNat_le] at hc
    exact ⟨le_trans hlow hc.1, lt_of_le_of_lt hc.2 hhigh⟩
  rcases Bool.or_eq_true_iff.mp hc with halpha | hdigit
  · rcases Bool.or_eq_true_iff.mp halpha with hupper | hlower
    · exact hrange 65 90 (by decide) (by decide) (of_decide_eq_true hupper)
    · have hlower := Bool.and_eq_true_iff.mp hlower
      exact hrange 97 122 (by decide) (by decide) ⟨of_decide_eq_true hlower.1, of_decide_eq_true hlower.2⟩
  · have hdigit := Bool.and_eq_true_iff.mp hdigit
    exact hrange 48 57 (by decide) (by decide) ⟨of_decide_eq_true hdigit.1, of_decide_eq_true hdigit.2⟩

theorem isDesired_lt {c : Char} (hc : isDesired c = true) : c.toNat < 0x80 := by
  rw [isDesired, Bool.or_eq_true, List.contains_iff_mem] at hc
  rcases hc with halnum | hmem
  · exact (isAlphanum_range halnum).2
  · exact of_decide_eq_true (List.all_eq_true.mp
      (show (" :~.,_/=%()\r\n\t?#-".toList.all fun c => decide (c.toNat < 0x80)) = true by decide) c hmem)

/-- A desired character is written as it is or as an escape that is read as it. -/
theorem escape_desired {c : Char} (hc : isDesired c = true) :
    (escapeJsonChar c = [c] ∧ plain c = true) ∨
      ∃ d, escapeJsonChar c = ['\\', d] ∧ d.toNat < 0x80 ∧ ∀ t, escaped (d :: t) = some ([c], t) := by
  rw [isDesired, Bool.or_eq_true, List.contains_iff_mem] at hc
  rcases hc with halnum | hmem
  · have hlow := (isAlphanum_range halnum).1
    have hne : ∀ d : Char, d.isAlphanum = false → c ≠ d := by
      rintro d hd rfl
      rw [hd] at halnum
      cases halnum
    left
    constructor
    · rw [escapeJsonChar, if_neg (hne _ rfl), if_neg (hne _ rfl), if_neg (hne _ rfl), if_neg (hne _ rfl),
        if_neg (hne _ rfl), if_neg (hne _ rfl), if_neg (hne _ rfl), if_neg (by omega)]
    · have hquote := hne '"' rfl
      have hslash := hne '\\' rfl
      simp only [plain, Bool.and_eq_true, decide_eq_true_eq, bne_iff_ne]
      exact ⟨⟨by omega, hquote⟩, hslash⟩
  · simp only [String.reduceToList, List.mem_cons, List.not_mem_nil, or_false] at hmem
    rcases hmem with rfl | rfl | rfl | rfl | rfl | rfl | rfl | rfl | rfl | rfl | rfl | rfl | rfl | rfl | rfl | rfl | rfl
    all_goals first
      | exact .inl ⟨rfl, rfl⟩
      | exact .inr ⟨'n', rfl, by decide, fun _ => rfl⟩
      | exact .inr ⟨'r', rfl, by decide, fun _ => rfl⟩
      | exact .inr ⟨'t', rfl, by decide, fun _ => rfl⟩

/-- The control characters that are desired. -/
theorem escape_control {c : Char} (hc : isDesired c = true) (hlow : c.toNat < 0x20) :
    c = '\n' ∨ c = '\r' ∨ c = '\t' := by
  rw [isDesired, Bool.or_eq_true, List.contains_iff_mem] at hc
  rcases hc with halnum | hmem
  · exact absurd (isAlphanum_range halnum).1 (by omega)
  · exact of_decide_eq_true (List.all_eq_true.mp (show (" :~.,_/=%()\r\n\t?#-".toList.all fun c =>
      decide (c.toNat < 0x20 → c = '\n' ∨ c = '\r' ∨ c = '\t')) = true by decide) c hmem) hlow

theorem isDesired_ne {c d : Char} (hc : isDesired c = true) (hd : isDesired d = false) : c ≠ d := by
  rintro rfl
  rw [hc] at hd
  cases hd

/-- What `escape_json` writes between quotes is read as the text without its undesired characters. -/
theorem escapeJson_encodes (js : Text) :
    InString (escapeJson js) (escapeJson js) ∧ Encodes (escapeJson js) (removeUndesiredChars js).1 ∧
      ∀ c ∈ escapeJson js, c.toNat < 0x80 := by
  rw [escapeJson]
  obtain ⟨t, ht⟩ := removeUndesiredChars js
  show InString (t.flatMap escapeJsonChar) (t.flatMap escapeJsonChar) ∧ Encodes (t.flatMap escapeJsonChar) t ∧
    ∀ c ∈ t.flatMap escapeJsonChar, c.toNat < 0x80
  induction t with
  | nil => exact ⟨inString_nil, encodes_nil, fun c hc => by cases hc⟩
  | cons c t ih =>
      rw [List.all_cons, Bool.and_eq_true] at ht
      obtain ⟨hin, hencodes, hascii⟩ := ih ht.2
      rw [List.flatMap_cons]
      rcases escape_desired ht.1 with ⟨hself, hplain⟩ | ⟨d, hescape, hd, hread⟩
      · rw [hself]
        have hchar := inString_char (isDesired_ne ht.1 rfl) (isDesired_ne (d := '\\') ht.1 rfl)
        simp only [plain, Bool.and_eq_true, decide_eq_true_eq] at hplain
        rw [if_neg (by omega)] at hchar
        refine ⟨hchar.append hin, hencodes.cons (by simpa [plain] using hplain), fun e he => ?_⟩
        rcases List.mem_append.mp he with he | he
        · exact List.mem_singleton.mp he ▸ isDesired_lt ht.1
        · exact hascii e he
      · rw [hescape]
        refine ⟨(inString_escape d).append hin, hencodes.escape hread, fun e he => ?_⟩
        rcases List.mem_append.mp he with he | he
        · rcases List.mem_pair.mp he with rfl | rfl
          · decide
          · exact hd
        · exact hascii e he

/-- A clean text stays as it is. -/
theorem removeUndesiredChars_clean (t : CleanText) : removeUndesiredChars t.1 = t :=
  Subtype.ext (List.filter_eq_self.mpr fun c hc => List.all_eq_true.mp t.2 c hc)

theorem inert_escapeJson (js : Text) : Inert (inQuotes (escapeJson js)) (inQuotes (escapeJson js)) :=
  (escapeJson_encodes js).1.inert

theorem reads_escapeJson (js : Text) :
    Reads (inQuotes (escapeJson js)) (.leaf (removeUndesiredChars js).1) :=
  reads_string (escapeJson_encodes js).2.1

theorem ascii_inQuotes {t : Text} (h : ∀ c ∈ t, c.toNat < 0x80) : ∀ c ∈ inQuotes t, c.toNat < 0x80 := by
  intro c hc
  simp only [inQuotes, List.cons_append, List.mem_cons, List.mem_append, List.not_mem_nil, or_false] at hc
  rcases hc with rfl | hc | rfl
  · decide
  · exact h c hc
  · decide

/-! ## Members -/

namespace SettingType

/-- What is read of a written value. -/
def data : (t : SettingType) → t.Value → Text
  | uint8, n => ofNat (UInt8.toNat n)
  | uint16, n => ofNat (UInt16.toNat n)
  | uint32, n => ofNat (UInt32.toNat n)
  | int, z => printInt (Int32.toInt z)
  | bool, b => boolText b
  | text, t => t.1
  | rawText, t => (removeUndesiredChars t).1

/-- The value that is there after it has been written and read. -/
def reread : (t : SettingType) → t.Value → t.Value
  | rawText, t => (removeUndesiredChars t).1
  | _, v => v

theorem ascii_printInt (z : ℤ) : ∀ c ∈ printInt z, c.toNat < 0x80 := by
  intro c hc
  rw [printInt] at hc
  split at hc
  · rcases List.mem_cons.mp hc with rfl | hc
    · decide
    · exact ascii_ofNat _ c hc
  · exact ascii_ofNat _ c hc

theorem ascii_boolText (b : Bool) : ∀ c ∈ boolText b, c.toNat < 0x80 := by
  intro c hc
  cases b with
  | true => exact of_decide_eq_true (List.all_eq_true.mp
      (show ((boolText true).all fun c => decide (c.toNat < 0x80)) = true by decide) c hc)
  | false => exact of_decide_eq_true (List.all_eq_true.mp
      (show ((boolText false).all fun c => decide (c.toNat < 0x80)) = true by decide) c hc)

theorem reads_clean (t : CleanText) : Reads (inQuotes (escapeJson t.1)) (.leaf t.1) := by
  have hread := reads_escapeJson t.1
  rwa [removeUndesiredChars_clean] at hread

theorem quote_notMem_ofNat (n : ℕ) : '"' ∉ ofNat n := not_mem_ofNat rfl n

/-- A written value is left alone by the escaping, is read as its text, and is ASCII. -/
theorem json_reads : ∀ (t : SettingType) (v : t.Value),
    Inert (t.json v) (t.json v) ∧ Reads (t.json v) (.leaf (t.data v)) ∧ ∀ c ∈ t.json v, c.toNat < 0x80
  | uint8, n => ⟨inert_of_notMem (quote_notMem_ofNat _), reads_nat _, ascii_ofNat _⟩
  | uint16, n => ⟨inert_of_notMem (quote_notMem_ofNat _), reads_nat _, ascii_ofNat _⟩
  | uint32, n => ⟨inert_of_notMem (quote_notMem_ofNat _), reads_nat _, ascii_ofNat _⟩
  | int, z => by
      refine ⟨inert_of_notMem fun hmem => ?_, reads_int _, ascii_printInt _⟩
      simp only [json, printInt] at hmem
      split at hmem
      · rcases List.mem_cons.mp hmem with heq | hmem
        · cases heq
        · exact quote_notMem_ofNat _ hmem
      · exact quote_notMem_ofNat _ hmem
  | bool, b => by
      cases b with
      | true => exact ⟨inert_of_notMem (by decide), reads_bool true, ascii_boolText true⟩
      | false => exact ⟨inert_of_notMem (by decide), reads_bool false, ascii_boolText false⟩
  | text, t => ⟨inert_escapeJson _, reads_clean t, ascii_inQuotes (escapeJson_encodes _).2.2⟩
  | rawText, t => ⟨inert_escapeJson t, reads_escapeJson t, ascii_inQuotes (escapeJson_encodes t).2.2⟩

/-- **A value is read from its text.** -/
theorem read_data : ∀ (t : SettingType) (v : t.Value), t.read (.leaf (t.data v)) = some (t.reread v)
  | uint8, n => by
      have hlt : UInt8.toNat n < 256 := UInt8.toNat_lt n
      show ((extractUnsigned 4294967295 (ofNat (UInt8.toNat n))).filter fun n => n ≤ 255).map UInt8.ofNat = some n
      rw [extractUnsigned_ofNat (by omega), Option.filter_some, if_pos (by simp; omega), Option.map_some]
      exact congrArg some UInt8.ofNat_toNat
  | uint16, n => by
      have hlt : UInt16.toNat n < 65536 := UInt16.toNat_lt n
      show (extractUnsigned 65535 (ofNat (UInt16.toNat n))).map UInt16.ofNat = some n
      rw [extractUnsigned_ofNat (by omega), Option.map_some]
      exact congrArg some UInt16.ofNat_toNat
  | uint32, n => by
      have hlt : UInt32.toNat n < 4294967296 := UInt32.toNat_lt n
      show (extractUnsigned 4294967295 (ofNat (UInt32.toNat n))).map UInt32.ofNat = some n
      rw [extractUnsigned_ofNat (by omega), Option.map_some]
      exact congrArg some UInt32.ofNat_toNat
  | int, z => by
      have hlow : -2 ^ 31 ≤ Int32.toInt z := Int32.le_toInt z
      have hhigh : Int32.toInt z < 2 ^ 31 := Int32.toInt_lt z
      show (Ptree.getInt? (.leaf (printInt (Int32.toInt z)))).map Int32.ofInt = some z
      rw [Ptree.getInt?_printInt (by omega) (by omega), Option.map_some]
      exact congrArg some (Int32.ofInt_toInt z)
  | bool, b => by cases b <;> rfl
  | text, t => congrArg some (removeUndesiredChars_clean t)
  | rawText, t => rfl

end SettingType

/-- A character of the directory after the escaping of the document. -/
def rawChar (c : Char) : Text := if c.toNat < 0x20 then Json.escape c else [c]

theorem ascii_rawChar {c : Char} (hc : isDesired c = true) : ∀ d ∈ rawChar c, d.toNat < 0x80 := by
  intro d hd
  rw [rawChar] at hd
  split at hd
  · rename_i hlow
    rcases escape_control hc hlow with rfl | rfl | rfl
    · rcases List.mem_pair.mp hd with rfl | rfl <;> decide
    · rcases List.mem_pair.mp hd with rfl | rfl <;> decide
    · rcases List.mem_pair.mp hd with rfl | rfl <;> decide
  · exact List.mem_singleton.mp hd ▸ isDesired_lt hc

namespace Setting

/-- What is written of a setting, after the escaping of the document. -/
def escapedJson : (k : Setting) → k.type.Value → Text
  | httpBaseDir, t => inQuotes (t.1.flatMap rawChar)
  | k, v => k.type.json v

/-- The directory is not escaped, but what is written of it is read as it. -/
theorem httpBaseDir_reads (t : CleanText) :
    Inert (inQuotes t.1) (inQuotes (t.1.flatMap rawChar)) ∧ Reads (inQuotes (t.1.flatMap rawChar)) (.leaf t.1) ∧
      ∀ c ∈ inQuotes (t.1.flatMap rawChar), c.toNat < 0x80 := by
  have hdesired : ∀ c ∈ t.1, isDesired c = true := List.all_eq_true.mp t.2
  have hne : ∀ c ∈ t.1, c ≠ '"' ∧ c ≠ '\\' := fun c hc =>
    ⟨isDesired_ne (hdesired c hc) rfl, isDesired_ne (hdesired c hc) rfl⟩
  refine ⟨(inString_flatMap hne).inert, reads_string (encodes_flatMap hne fun c hc hlow =>
    escape_control (hdesired c hc) hlow), ascii_inQuotes fun c hc => ?_⟩
  obtain ⟨d, hd, hc⟩ := List.mem_flatMap.mp hc
  exact ascii_rawChar (hdesired d hd) c hc

/-- **What is written of a setting is read as its text.** -/
theorem json_reads (k : Setting) (v : k.type.Value) :
    Inert (k.json v) (k.escapedJson v) ∧ Reads (k.escapedJson v) (.leaf (k.type.data v)) ∧
      ∀ c ∈ k.escapedJson v, c.toNat < 0x80 := by
  cases k with
  | httpBaseDir => exact httpBaseDir_reads v
  | _ => exact SettingType.json_reads _ v

/-- **A setting is read from its text.** -/
theorem read_data (k : Setting) (v : k.type.Value) : k.read (.leaf (k.type.data v)) = some (k.type.reread v) := by
  have hport : ∀ n : UInt16, (Ptree.getInt? (.leaf (Text.ofNat n.toNat))).map UInt16.ofInt = some n := by
    intro n
    have hlt : n.toNat < 65536 := n.toNat_lt
    have hread := Ptree.getInt?_printInt (z := n.toNat) (by omega) (by omega)
    rw [printInt, if_neg (by omega), Int.natAbs_natCast] at hread
    rw [hread, Option.map_some, uint16_ofInt_toNat]
  cases k with
  | httpPort => exact hport v
  | rtspPort => exact hport v
  | _ => exact SettingType.read_data _ v

end Setting

/-! ## The file -/

theorem Setting.mem_all (k : Setting) : k ∈ Setting.all := by cases k <;> simp [Setting.all]

namespace ConfigKey

/-- The name of a member. -/
def name : ConfigKey → Text
  | setting k => k.key.toList
  | nodeId => "node_id".toList
  | macAddr => "mac_addr".toList

/-- What is written of a member, after the escaping of the document. -/
def escapedJson (h : ConfigHost) (c : DaemonConfig) : ConfigKey → Text
  | setting k => k.escapedJson (c.get h k)
  | nodeId => inQuotes (escapeJson c.nodeId)
  | macAddr => inQuotes (escapeJson c.macAddrStr)

/-- What is read of it. -/
def data (h : ConfigHost) (c : DaemonConfig) : ConfigKey → Text
  | setting k => k.type.data (c.get h k)
  | nodeId => (removeUndesiredChars c.nodeId).1
  | macAddr => (removeUndesiredChars c.macAddrStr).1

variable {h : ConfigHost} {c : DaemonConfig}

theorem member_eq (m : ConfigKey) : (m.member h c).1 = m.name := by cases m <;> rfl

theorem plain_name (m : ConfigKey) : ∀ c ∈ m.name, plain c = true ∧ c.toNat < 0x80 := by
  have hall : (m.name.all fun c => plain c && decide (c.toNat < 0x80)) = true := by
    cases m with
    | setting k =>
        have hkeys : (Setting.all.all fun k => k.key.toList.all fun c => plain c && decide (c.toNat < 0x80)) = true := by
          decide +kernel
        exact List.all_eq_true.mp hkeys k k.mem_all
    | nodeId => decide
    | macAddr => decide
  intro c hc
  have hc := List.all_eq_true.mp hall c hc
  rw [Bool.and_eq_true, decide_eq_true_eq] at hc
  exact hc

theorem member_reads (m : ConfigKey) :
    Inert (m.member h c).2 (m.escapedJson h c) ∧ Reads (m.escapedJson h c) (.leaf (m.data h c)) ∧
      ∀ d ∈ m.escapedJson h c, d.toNat < 0x80 := by
  cases m with
  | setting k => exact k.json_reads _
  | nodeId => exact ⟨inert_escapeJson _, reads_escapeJson _, ascii_inQuotes (escapeJson_encodes _).2.2⟩
  | macAddr => exact ⟨inert_escapeJson _, reads_escapeJson _, ascii_inQuotes (escapeJson_encodes _).2.2⟩

end ConfigKey

/-- **The file is read as its members.** -/
theorem readRaw_configToJson (h : ConfigHost) (c : DaemonConfig) :
    readRaw (configToJson h c) = some (.node [] (writtenKeys.map fun m => (m.name, .leaf (m.data h c)))) := by
  have hlead : ∀ c ∈ "\n  ".toList, isWs c = true := List.all_eq_true.mp (by decide)
  have hend : ∀ c ∈ ['\n'], isWs c = true := List.all_eq_true.mp (by decide)
  -- the members as they are written, after the escaping, and as they are read
  let ms := writtenKeys.map fun m => (m.name, m.escapedJson h c, Ptree.leaf (m.data h c))
  have hms : ∀ m ∈ ms, (∀ c ∈ m.1, plain c = true) ∧ Reads m.2.1 m.2.2 := by
    intro m hm
    obtain ⟨k, -, rfl⟩ := List.mem_map.mp hm
    exact ⟨fun c hc => (k.plain_name c hc).1, k.member_reads.2.1⟩
  have hreads := reads_members hlead hlead hend hms
  have hinert : Inert (",\n  ".toList.intercalate (writtenKeys.map fun k => memberText (k.member h c)))
      (",\n  ".toList.intercalate (ms.map fun m => memberText (m.1, m.2.1))) := by
    have hall := inert_intercalate (show '"' ∉ ",\n  ".toList by decide)
      (writtenKeys.map fun k => (memberText (k.member h c), memberText (k.name, k.escapedJson h c))) (by
        intro m hm
        obtain ⟨k, -, rfl⟩ := List.mem_map.mp hm
        have hmember : k.member h c = (k.name, (k.member h c).2) := Prod.ext (k.member_eq) rfl
        rw [hmember]
        exact inert_memberText (fun c hc => (k.plain_name c hc).1) k.member_reads.1)
    simpa only [ms, List.map_map, Function.comp_def] using hall
  have hopen : Inert ('{' :: "\n  ".toList) ('{' :: "\n  ".toList) := inert_of_notMem (by decide)
  have hclose : Inert "\n\x7d\n".toList "\n\x7d\n".toList := inert_of_notMem (by decide)
  have hutf8 : isUtf8 ('{' :: "\n  ".toList ++ ",\n  ".toList.intercalate
      (ms.map fun m => memberText (m.1, m.2.1)) ++ ['\n'] ++ ['}']) = true := by
    refine isUtf8_append (isUtf8_append (isUtf8_append rfl (isUtf8_intercalate rfl fun t ht => ?_)) rfl) rfl
    obtain ⟨m, hm, rfl⟩ := List.mem_map.mp ht
    obtain ⟨k, -, rfl⟩ := List.mem_map.mp hm
    exact isUtf8_memberText (isUtf8_of_ascii fun c hc => (k.plain_name c hc).2) (isUtf8_of_ascii k.member_reads.2.2)
  have hwhole := (hopen.append hinert).append hclose
  have hread := readRaw_eq (t := '{' :: "\n  ".toList ++ ",\n  ".toList.intercalate
      (writtenKeys.map fun k => memberText (k.member h c)) ++ ['\n'] ++ ['}']) (by simpa using hwhole) hreads hutf8 hend
  simpa [configToJson, ms, Function.comp_def] using hread

/-- A key leads back to its setting. -/
theorem Setting.ofKey?_key (k : Setting) : Setting.ofKey? k.key.toList = some k := by
  have hall : (Setting.all.all fun k => decide (Setting.ofKey? k.key.toList = some k)) = true := by decide +kernel
  exact of_decide_eq_true (List.all_eq_true.mp hall k k.mem_all)

theorem readMember_key (values : Values) (k : Setting) (v : Ptree) :
    readMember values (k.key.toList, v) = (k.read v).map (Function.update values k) := by
  unfold readMember
  dsimp only
  rw [Setting.ofKey?_key]

theorem readMember_written {h : ConfigHost} {c : DaemonConfig} (values : Values) (k : Setting) :
    readMember values (ConfigKey.name (.setting k), .leaf (ConfigKey.data h c (.setting k))) =
      some (Function.update values k (k.type.reread (c.get h k))) :=
  (readMember_key values k _).trans (congrArg (Option.map (Function.update values k)) (k.read_data _))

theorem mem_writtenKeys (k : Setting) : .setting k ∈ writtenKeys := by
  have hall : (Setting.all.all fun k => decide (.setting k ∈ writtenKeys)) = true := by decide +kernel
  exact of_decide_eq_true (List.all_eq_true.mp hall k k.mem_all)

/-- The values after some written members have been read. -/
theorem foldlM_written {h : ConfigHost} {c : DaemonConfig} (ms : List ConfigKey) (values : Values) :
    (ms.map fun m => (m.name, Ptree.leaf (m.data h c))).foldlM readMember values =
      some fun k => if .setting k ∈ ms then k.type.reread (c.get h k) else values k := by
  induction ms generalizing values with
  | nil => simp
  | cons m ms ih =>
      rw [List.map_cons, List.foldlM_cons]
      cases m with
      | setting k =>
          rw [readMember_written, Option.bind_eq_bind, Option.bind_some, ih]
          refine congrArg some (funext fun k' => ?_)
          by_cases hmem : ConfigKey.setting k' ∈ ms
          · simp [hmem]
          · by_cases heq : k' = k
            · subst heq
              simp [hmem]
            · simp [hmem, heq]
      | nodeId =>
          have hread : readMember values (ConfigKey.name .nodeId, .leaf (ConfigKey.data h c .nodeId)) = some values := rfl
          rw [hread, Option.bind_eq_bind, Option.bind_some, ih]
          simp
      | macAddr =>
          have hread : readMember values (ConfigKey.name .macAddr, .leaf (ConfigKey.data h c .macAddr)) = some values := rfl
          rw [hread, Option.bind_eq_bind, Option.bind_some, ih]
          simp

/-- **What has been written is read again**, except that the IP address loses its undesired characters. -/
theorem jsonToConfig_configToJson {h : ConfigHost} (hreader : ∀ t tree, readRaw t = some tree → h.readJson t = some tree)
    (c : DaemonConfig) (values : Values) :
    jsonToConfig h (configToJson h c) values = some fun k => k.type.reread (c.get h k) := by
  rw [jsonToConfig, hreader _ _ (readRaw_configToJson h c), Option.bind_some, Ptree.children_node, foldlM_written]
  simp only [mem_writtenKeys, if_true]

end Aes67Daemon
