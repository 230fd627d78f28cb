import Mathlib.Data.List.Forall2
import Blehostd.Events
import Blehostd.Events.Texts

namespace Blehostd

-- The text of a byte list is whole in the buffer of bhd_json_create_byte_string,
-- NUL included, and up to the longest attribute also in the one of the event.
theorem byteStrings_survive :
    (∀ bytes : List UInt8, createByteString bytes = .string (byteText bytes) ∧
      (byteText bytes).length < bytes.length * 5 + 1) ∧
    (∀ (bytes : List UInt8) (maxLen : Nat), bytes.length ≤ maxLen →
      parseArgByteStream (byteText bytes) maxLen = (none, bytes)) ∧
    ∀ evt : NotifyRxEvt, evt.data.length ≤ BLE_ATT_ATTR_MAX_LEN →
      (Json.object (notifyRxEvtEnc evt)).getObjectItem "data" = some (.string (byteText evt.data)) ∧
        (byteText evt.data).length < BLE_ATT_ATTR_MAX_LEN * 5 := by
  refine ⟨?_, parse_byteText, ?_⟩
  · intro bytes
    refine ⟨?_, ?_⟩
    · rw [createByteString, hexStr_complete _ bytes (by omega)]
    · rw [byteText_length]
      omega
  · intro evt hfits
    refine ⟨?_, ?_⟩
    · have hdata : (Json.object (notifyRxEvtEnc evt)).getObjectItem "data" =
          some (.string (hexStr (BLE_ATT_ATTR_MAX_LEN * 5) evt.data).1) := by
        rfl
      rw [hdata, hexStr_complete _ evt.data (by omega)]
    · have hmax : BLE_ATT_ATTR_MAX_LEN = 512 := rfl
      rw [byteText_length]
      omega

-- The longest attribute leaves nothing of the buffer but the NUL.
theorem longest_bytes_survive :
    parseArgByteStream (byteText (List.replicate 512 0xa5)) 512 =
      (none, List.replicate 512 0xa5) ∧
    (Json.object (notifyRxEvtEnc ⟨1, 2, false, List.replicate 512 0xa5⟩)).getObjectItem "data" =
      some (.string (byteText (List.replicate 512 0xa5))) := by
  have hlength : (List.replicate 512 (0xa5 : UInt8)).length = 512 := List.length_replicate
  exact ⟨byteStrings_survive.2.1 _ 512 (Nat.le_of_eq hlength),
    (byteStrings_survive.2.2 ⟨1, 2, false, List.replicate 512 0xa5⟩ (Nat.le_of_eq hlength)).1⟩

-- The token is the value of the byte, read to its end.
def ByteToken (token : Text) (byte : UInt8) : Prop :=
  strtoul token = (byte.toNat, [])

theorem parseTokens_ok (sval : Text) (maxLen : Nat) (pieces : List Text) (dst out : List UInt8)
    (h : parseTokens sval maxLen pieces dst = (none, out)) :
    ∃ bytes, out = dst ++ bytes ∧ List.Forall₂ ByteToken pieces bytes := by
  induction pieces generalizing dst with
  | nil =>
      simp only [parseTokens, Prod.mk.injEq, true_and] at h
      exact ⟨[], by simp [h], .nil⟩
  | cons token rest ih =>
      by_cases hfull : maxLen ≤ dst.length
      · simp [parseTokens, hfull] at h
      · by_cases hbad : sval = [] ∨ (strtoul token).2 ≠ [] ∨ 255 < (strtoul token).1
        · simp [parseTokens, hfull, hbad] at h
        · simp only [parseTokens, hfull, if_false, hbad] at h
          obtain ⟨bytes, rfl, hbytes⟩ := ih _ h
          simp only [not_or, ne_eq, not_not, not_lt] at hbad
          have hbyte : (UInt8.ofNat (strtoul token).1).toNat = (strtoul token).1 :=
            UInt8.toNat_ofNat_of_lt' (Nat.lt_succ_of_le hbad.2.2)
          refine ⟨_, List.append_assoc _ _ _, .cons ?_ hbytes⟩
          unfold ByteToken
          rw [hbyte, ← hbad.2.1]

theorem parseArgMac_ok (val : Text) (bytes : List UInt8) (h : parseArgMac val = (none, bytes)) :
    List.Forall₂ ByteToken (tokens val) bytes.reverse ∧ bytes.length = 6 := by
  obtain ⟨⟨rc, parsed⟩, hparse⟩ : ∃ read, parseArgByteStream val 6 = read := ⟨_, rfl⟩
  simp only [parseArgMac, parseArgByteStreamExactLength, hparse] at h
  cases rc with
  | some e => simp at h
  | none =>
      by_cases hlength : parsed.length = 6
      · simp only [hlength, ne_eq, not_true_eq_false, if_false, Prod.mk.injEq, true_and] at h
        subst h
        obtain ⟨read, rfl, hread⟩ := parseTokens_ok val 6 (tokens val) [] parsed hparse
        rw [List.reverse_reverse, List.length_reverse]
        exact ⟨hread, hlength⟩
      · simp [hlength] at h

-- The loop of parse_reverse_bytes: byte i and byte len - i - 1 change places.
def swapBytes (bytes : List UInt8) (i j : Nat) : List UInt8 :=
  (bytes.set i (bytes.getD j 0)).set j (bytes.getD i 0)

def reverseLoop (len : Nat) : Nat → List UInt8 → List UInt8
  | 0, bytes => bytes
  | i + 1, bytes => swapBytes (reverseLoop len i bytes) i (len - i - 1)

def parseReverseBytes (bytes : List UInt8) : List UInt8 :=
  reverseLoop bytes.length (bytes.length / 2) bytes

theorem swapBytes_length (bytes : List UInt8) (i j : Nat) :
    (swapBytes bytes i j).length = bytes.length := by
  simp [swapBytes]

theorem swapBytes_get (bytes : List UInt8) (i j k : Nat) (hi : i < bytes.length)
    (hj : j < bytes.length) :
    (swapBytes bytes i j)[k]? =
      if k = j then bytes[i]? else if k = i then bytes[j]? else bytes[k]? := by
  unfold swapBytes
  by_cases hkj : k = j
  · subst hkj
    simp [hi, hj]
  · by_cases hki : k = i
    · subst hki
      simp [hi, hj, hkj, Ne.symm hkj]
    · simp [hkj, hki, Ne.symm hkj, Ne.symm hki]

-- After i rounds the i outer bytes of each end have changed places.
theorem reverseLoop_get (bytes : List UInt8) (i : Nat) (hi : i ≤ bytes.length / 2) :
    (reverseLoop bytes.length i bytes).length = bytes.length ∧
      ∀ k < bytes.length, (reverseLoop bytes.length i bytes)[k]? =
        if k < i ∨ bytes.length - i ≤ k then bytes[bytes.length - 1 - k]? else bytes[k]? := by
  induction i with
  | zero =>
      refine ⟨rfl, ?_⟩
      intro k hk
      have hmiddle : ¬(k < 0 ∨ bytes.length - 0 ≤ k) := by omega
      rw [if_neg hmiddle]
      rfl
  | succ i ih =>
      obtain ⟨hlength, hget⟩ := ih (by omega)
      refine ⟨by rw [reverseLoop, swapBytes_length, hlength], ?_⟩
      intro k hk
      rw [reverseLoop, swapBytes_get _ _ _ _ (by omega) (by omega)]
      by_cases hlast : k = bytes.length - i - 1
      · have hmirror : bytes.length - 1 - k = i := by omega
        have hmiddle : ¬(i < i ∨ bytes.length - i ≤ i) := by omega
        rw [if_pos hlast, if_pos (by omega), hget i (by omega), if_neg hmiddle, hmirror]
      · by_cases hfirst : k = i
        · have hmirror : bytes.length - i - 1 = bytes.length - 1 - k := by omega
          have hmiddle : ¬(bytes.length - 1 - k < i ∨ bytes.length - i ≤ bytes.length - 1 - k) := by
            omega
          rw [if_neg hlast, if_pos hfirst, if_pos (by omega), hmirror, hget _ (by omega),
            if_neg hmiddle]
        · rw [if_neg hlast, if_neg hfirst, hget k hk]
          congr 1
          apply propext
          omega

theorem parseReverseBytes_eq (bytes : List UInt8) : parseReverseBytes bytes = bytes.reverse := by
  obtain ⟨hlength, hget⟩ := reverseLoop_get bytes (bytes.length / 2) (Nat.le_refl _)
  apply List.ext_getElem?
  intro k
  unfold parseReverseBytes
  by_cases hk : k < bytes.length
  · rw [hget k hk, List.getElem?_reverse hk]
    split_ifs with houter
    · rfl
    · have hmiddle : bytes.length - 1 - k = k := by omega
      rw [hmiddle]
  · rw [List.getElem?_eq_none (by omega), List.getElem?_eq_none (by simpa using hk)]

-- parse_arg_mac with that loop.
theorem parseArgMac_loop (val : Text) :
    parseArgMac val =
      ((parseArgByteStreamExactLength val 6).1,
        if (parseArgByteStreamExactLength val 6).1 = none then
          parseReverseBytes (parseArgByteStreamExactLength val 6).2
        else (parseArgByteStreamExactLength val 6).2) := by
  unfold parseArgMac
  simp only [parseReverseBytes_eq]
  split_ifs <;> simp_all

-- Token k of an accepted text is byte 5 - k of the address.
structure ReadsAddr (val : Text) (addr : Addr) : Prop where
  count : (tokens val).length = 6
  bytes : ∀ k token, (tokens val)[k]? = some token →
    ∃ byte, addr[5 - k]? = some byte ∧ ByteToken token byte

theorem readsAddr_of_accepted (val : Text) (addr : Addr)
    (h : parseArgMac val = (none, addr.toList)) : ReadsAddr val addr := by
  obtain ⟨hread, hlength⟩ := parseArgMac_ok val addr.toList h
  have hcount : (tokens val).length = 6 := by
    rw [hread.length_eq, List.length_reverse, hlength]
  refine ⟨hcount, ?_⟩
  intro k token htoken
  have hk : k < (tokens val).length := (List.getElem?_eq_some_iff.mp htoken).1
  have hmirror : 6 - 1 - k = 5 - k := rfl
  have hbyte : addr.toList.reverse[k]? = addr[5 - k]? := by
    rw [List.getElem?_reverse (by omega), hlength, hmirror]
    simp
  obtain ⟨byte, hbyteAt⟩ : ∃ byte, addr.toList.reverse[k]? = some byte := by
    have hbound : k < addr.toList.reverse.length := by rw [List.length_reverse]; omega
    exact ⟨_, List.getElem?_eq_getElem hbound⟩
  refine ⟨byte, hbyte ▸ hbyteAt, ?_⟩
  obtain ⟨hk', hget⟩ := List.getElem?_eq_some_iff.mp hbyteAt
  obtain ⟨_, hgetToken⟩ := List.getElem?_eq_some_iff.mp htoken
  rw [← hget, ← hgetToken]
  exact hread.get hk hk'

-- What a text gives is an address, and its own text gives it again.
theorem addrs_survive :
    (∀ addr : Addr, parseArgMac (addrStr addr) = (none, addr.toList)) ∧
    ∀ val bytes, parseArgMac val = (none, bytes) → ∃ addr : Addr, addr.toList = bytes ∧
      ReadsAddr val addr ∧ parseArgMac (addrStr addr) = (none, bytes) := by
  refine ⟨parseArgMac_addr, ?_⟩
  intro val bytes h
  obtain ⟨_, hlength⟩ := parseArgMac_ok val bytes h
  have haddr : (⟨bytes.toArray, hlength⟩ : Addr).toList = bytes := rfl
  refine ⟨⟨bytes.toArray, hlength⟩, haddr, readsAddr_of_accepted val _ h, ?_⟩
  rw [parseArgMac_addr, haddr]

-- Another spelling of an address: no leading zeros, "0x" and both delimiters.
theorem addrs_survive_spelling : ∃ addr : Addr, addr.toList = [6, 5, 4, 3, 0xb, 0xa] ∧
    ReadsAddr (ascii "a:0xB-03::4-5:6") addr ∧
      parseArgMac (addrStr addr) = (none, [6, 5, 4, 3, 0xb, 0xa]) :=
  addrs_survive.2 (ascii "a:0xB-03::4-5:6") [6, 5, 4, 3, 0xb, 0xa] (by decide +kernel)

end Blehostd
