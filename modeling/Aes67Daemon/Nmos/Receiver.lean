import Aes67Daemon.Lib.Seek
import Aes67Daemon.Session.Data

/-!
# The transport parameters of a receiver

`nmos_manager.cpp` reads the SDP of a receiver a second time, with searches
through the whole text.  `buildReceiverTpFromSdp` is `build_receiver_tp_from_sdp`
with the functions it calls; a position in the text is the text from there, and a
later position has less text behind it.

The searches are then taken apart into lines.

## Main definitions

* `sdpConnectionIp`, `sdpMediaPort`, `sdpSourceFilterIp`, `sdpHasDup` — the searches.
* `buildReceiverTpFromSdp` — the parameters of the two legs.
* `sectionConnection` — the `c=` line that is found, line by line.
-/
namespace Aes67Daemon

open Text

/-- `is_multicast`. -/
def isMulticast (addr : Text) : Bool :=
  match Address.ofText addr with
  | some ip => 0xE0000000 ≤ ip && ip ≤ 0xEFFFFFFF
  | none => false

/-- `sdp_has_dup`. -/
def sdpHasDup (sdp : Text) : Bool := (seek "a=group:DUP".toList sdp).isSome

/-- The address of a `c=IN IP4` line, from the line's start. -/
def addressIn (c : Text) : Text := (c.drop 9).takeWhile fun d => d ≠ '/' && d ≠ '\r' && d ≠ '\n'

/-- `sdp_connection_ip`. -/
def sdpConnectionIp (sdp : Text) (leg : ℕ) : Text :=
  match seekNth "m=audio ".toList 1 leg sdp with
  | none => []
  | some pos =>
    let nextM := seek "\nm=".toList (pos.drop 1)
    match seek "c=IN IP4 ".toList pos with
    | none => []
    | some c => if nextM.any fun m => c.length < m.length then [] else addressIn c

/-- `sdp_media_port`. -/
def sdpMediaPort (sdp : Text) (leg : ℕ) : UInt16 :=
  match seekNth "m=audio ".toList 1 leg sdp with
  | none => 5004
  | some pos =>
    match stoi ((pos.drop 8).takeWhile (· ≠ ' ')) with
    | some port => UInt16.ofInt port
    | none => 5004

/-- `sdp_source_filter_ip`. -/
def sdpSourceFilterIp (sdp : Text) (leg : ℕ) : Text :=
  let pre := "a=source-filter: incl IN IP4 ".toList
  match seekNth pre pre.length leg sdp with
  | none => []
  | some pos =>
    match seek [' '] (pos.drop pre.length) with
    | none => []
    | some sp => (sp.drop 1).takeWhile fun d => d ≠ '\r' && d ≠ '\n'

/-- `ReceiverTp`; no multicast address is the empty text, shown as `null`. -/
structure ReceiverTp where
  interfaceIp : Text := []
  multicastIp : Text := []
  destinationPort : UInt16 := 5004
  sourceIp : Text := "auto".toList
  rtpEnabled : Bool := false
  deriving DecidableEq

/-- `is_dual_leg`. -/
def Config.isDualLeg (c : Config) : Bool := c.interfaceName1 != []

/-- The parameters of a leg that is described in an SDP. -/
def receiverLeg (interfaceIp sdp : Text) (leg : ℕ) : ReceiverTp :=
  let dest := sdpConnectionIp sdp leg
  let src := sdpSourceFilterIp sdp leg
  { interfaceIp := interfaceIp
    multicastIp := if isMulticast dest then dest else []
    destinationPort := sdpMediaPort sdp leg
    sourceIp := if src = [] then "auto".toList else src
    rtpEnabled := true }

/-- `build_receiver_tp_from_sdp`; `secInterfaceIpStr` is the address the secondary
interface had when the manager started. -/
def buildReceiverTpFromSdp (config : Config) (secInterfaceIpStr sdp : Text) : List ReceiverTp :=
  receiverLeg config.ipAddrStr sdp 0 ::
    if config.isDualLeg then
      [if sdpHasDup sdp then receiverLeg secInterfaceIpStr sdp 1
       else { interfaceIp := secInterfaceIpStr, rtpEnabled := false, destinationPort := 5004 }]
    else []

/-! ## Multicast addresses -/

theorem inMulticast_eq (a : UInt32) :
    Address.inMulticast a = (0xE0000000 ≤ a && a ≤ 0xEFFFFFFF) := by
  have ha := a.toNat_lt
  have hdiv : (a.toNat &&& 0xf0000000) / 2 ^ 28 = a.toNat / 2 ^ 28 := by
    rw [Nat.and_div_two_pow, show 0xf0000000 / 2 ^ 28 = 2 ^ 4 - 1 by norm_num,
      Nat.and_two_pow_sub_one_eq_mod]
    omega
  have hmod : (a.toNat &&& 0xf0000000) % 2 ^ 28 = 0 := by
    rw [Nat.and_mod_two_pow]
    norm_num
  rw [Bool.eq_iff_iff, Address.inMulticast, beq_iff_eq, ← UInt32.toNat_inj, UInt32.toNat_and,
    Bool.and_eq_true, decide_eq_true_iff, decide_eq_true_iff, UInt32.le_iff_toNat_le,
    UInt32.le_iff_toNat_le]
  simp only [UInt32.reduceToNat]
  omega

theorem isMulticast_eq (t : Text) : isMulticast t = (Address.ofText t).any Address.inMulticast := by
  rw [isMulticast]
  cases Address.ofText t with
  | none => rfl
  | some ip => exact (inMulticast_eq ip).symm

@[simp] theorem isMulticast_toText (a : UInt32) :
    isMulticast (Address.toText a) = Address.inMulticast a := by
  rw [isMulticast_eq, Address.ofText_toText, Option.any_some]

/-! ## Line by line -/

/-- What the first `c=IN IP4` in the lines of a section says, before another `m=` line. -/
def sectionConnection : List Text → Text
  | [] => []
  | l :: ls =>
    if "m=".toList.isPrefixOf l then []
    else
      match seek "c=IN IP4 ".toList l with
      | some c => addressIn c
      | none => sectionConnection ls

/-- What the first `c=IN IP4` says from an `m=` line on. -/
def connectionFrom (m : Text) (ls : List Text) : Text :=
  match seek "c=IN IP4 ".toList m with
  | some c => addressIn c
  | none => sectionConnection ls

theorem addressIn_append {c t : Text} (hc : 9 ≤ c.length) (ht : EndsLine t) :
    addressIn (c ++ t) = addressIn c := by
  rw [addressIn, addressIn, List.drop_append_of_le_length hc, takeWhile_append (by decide) ht]

/-- The `c=IN IP4` behind an `m=` line, by searches through the text. -/
theorem connection_lines {e : Text} (he : e = [] ∨ e = ['\n']) {m u : Text} {ls : List Text}
    (hls : ∀ l ∈ u :: ls, '\n' ∉ l) :
    (match seek "c=IN IP4 ".toList (m ++ afterLines e ls) with
      | none => []
      | some c =>
        if (seek "\nm=".toList (u ++ afterLines e ls)).any fun m => c.length < m.length then []
        else addressIn c) = connectionFrom m ls := by
  have hend : EndsLine e := he.imp_right fun h => ⟨[], h⟩
  have hc : OnLine "c=IN IP4 ".toList := by decide
  have hm : OnLine "m=".toList := by decide
  rw [show "\nm=".toList = '\n' :: "m=".toList by decide, seek_newline_lines hm he hls]
  replace hls : ∀ l ∈ ls, '\n' ∉ l := fun l hl => hls l (List.mem_cons_of_mem _ hl)
  rw [connectionFrom]
  induction ls generalizing m with
  | nil =>
      rw [seek_lines hc he, seekLine]
      cases hseek : seek "c=IN IP4 ".toList m with
      | none => rfl
      | some c => exact addressIn_append (seek_eq_some hseek).2.length_le hend
  | cons l ls ih =>
      cases hseek : seek "c=IN IP4 ".toList m with
      | some c =>
          have hlen : 9 ≤ c.length := (seek_eq_some hseek).2.length_le
          rw [seek_lines hc he, seekLine, hseek]
          simp only [Option.map_some]
          rw [if_neg, addressIn_append hlen (endsLine_afterLines hend _)]
          split
          · simp
          · rename_i l' ls' hdrop
            have hle := (afterLines_suffix (e := e) (hdrop ▸ List.dropWhile_suffix _)).length_le
            simp only [Option.any_some, List.length_append, decide_eq_true_eq]
            omega
      | none =>
          have hnext : seek "c=IN IP4 ".toList (m ++ afterLines e (l :: ls)) =
              seek "c=IN IP4 ".toList (l ++ afterLines e ls) := by
            rw [seek_lines hc he, seekLine, hseek, seek_lines hc he]
          rw [hnext, sectionConnection, List.dropWhile_cons]
          by_cases hml : "m=".toList.isPrefixOf l
          · rw [if_pos hml, if_neg (by rw [hml]; decide)]
            split
            · rfl
            · rename_i c hseek'
              have hle := (seek_eq_some hseek').1.length_le
              rw [if_pos]
              simp only [Option.any_some, afterLines, List.length_cons, decide_eq_true_eq]
              omega
          · rw [if_neg hml, if_pos (by rw [Bool.eq_false_iff.mpr hml]; rfl)]
            exact ih fun l' hl' => hls l' (List.mem_cons_of_mem _ hl')

/-- The number that an `m=audio ` stands in front of, up to a blank, as a port. -/
def portAt (t : Text) : Option UInt16 := (stoi ((t.drop 8).takeWhile (· ≠ ' '))).map UInt16.ofInt

theorem portAt_append {f r : Text} (hf : ' ' ∉ f) :
    portAt ("m=audio ".toList ++ (f ++ ' ' :: r)) = (stoi f).map UInt16.ofInt := by
  have hne : ∀ c ∈ f, decide (c ≠ ' ') = true := fun c hc => by
    simpa using fun hcc : c = ' ' => hf (hcc ▸ hc)
  rw [portAt, List.drop_left' (by decide), List.takeWhile_append_of_pos hne, List.takeWhile_cons,
    if_neg (by decide), List.append_nil]

/-- **The port of a leg**, by searches through the text. -/
theorem sdpMediaPort_eq (sdp : Text) (leg : ℕ) :
    sdpMediaPort sdp leg = ((seekNth "m=audio ".toList 1 leg sdp).bind portAt).getD 5004 := by
  rw [sdpMediaPort]
  cases seekNth "m=audio ".toList 1 leg sdp with
  | none => rfl
  | some pos =>
      simp only [Option.bind_some, portAt]
      cases stoi ((pos.drop 8).takeWhile (· ≠ ' ')) <;> rfl

/-- **The address of a leg**, by searches through the text. -/
theorem sdpConnectionIp_lines {e : Text} (he : e = [] ∨ e = ['\n']) {l : Text} {ls : List Text}
    (hnl : ∀ l' ∈ l :: ls, '\n' ∉ l') (leg : ℕ) : sdpConnectionIp (l ++ afterLines e ls) leg =
      ((occurrence "m=audio ".toList leg (l :: ls)).map fun s => connectionFrom s.1 s.2).getD [] := by
  rw [sdpConnectionIp, seekNth_lines (by decide) he]
  cases hs : occurrence "m=audio ".toList leg (l :: ls) with
  | none => rfl
  | some s =>
      obtain ⟨m, rest⟩ := s
      obtain ⟨hpre, hbreaks⟩ := occurrence_eq_some hs hnl
      obtain ⟨c, u, rfl⟩ : ∃ c u, m = c :: u := List.exists_cons_of_ne_nil fun h0 => by
        rw [h0, List.prefix_nil] at hpre
        exact absurd hpre (by decide)
      have hlines := connection_lines he (m := c :: u) (u := u) fun l' hl' => by
        rcases List.mem_cons.mp hl' with rfl | hl'
        · exact fun hmem => hbreaks _ List.mem_cons_self (List.mem_cons_of_mem _ hmem)
        · exact hbreaks l' (List.mem_cons_of_mem _ hl')
      simpa only [Option.map_some, List.cons_append, List.drop_one, List.tail_cons,
        Option.getD_some] using hlines

end Aes67Daemon
