import Blehostd.Util.HexStr

namespace Blehostd

def SIZE_MOD : Nat := 2 ^ 64

-- The locals of bhd_mbuf_to_s: the buffer, dst as an offset into it, and remlen, a
-- size_t. `wrapped` records a subtraction from remlen that went below zero.
structure MbufStr where
  str : Buffer
  dst : Nat
  remlen : Nat
  wrapped : Bool

-- The result of snprintf is the length of the whole text, whatever is left of it.
def MbufStr.print (s : MbufStr) (text : Text) : MbufStr :=
  { str := s.str.snprintf s.dst s.remlen text
    dst := s.dst + text.length
    remlen := (s.remlen + SIZE_MOD - text.length) % SIZE_MOD
    wrapped := s.wrapped || decide (s.remlen < text.length) }

def mbufToSLoop (om : Mbuf) : Nat → Nat → MbufStr → MbufStr
  | 0, _, s => s
  | n + 1, moff, s =>
      let s := if moff ≠ 0 then s.print (ascii ":") else s
      let (rc, bytes) := om.copydata moff 1
      if rc ≠ 0 then s
      else mbufToSLoop om n (moff + 1) (s.print (ascii "0x" ++ hexByte (bytes.headD 0)))

-- The buffer of the caller with what it holds.
def mbufToS (om : Mbuf) (cells : Nat → UInt8) (maxlen : Nat) : MbufStr :=
  mbufToSLoop om om.pktlen 0 ⟨⟨cells, []⟩, 0, maxlen, false⟩

def MbufStr.printAll (s : MbufStr) (texts : List Text) : MbufStr :=
  texts.foldl MbufStr.print s

-- The texts that are printed one after the other.
def mbufTexts : List UInt8 → List Text
  | [] => []
  | byte :: rest => firstPiece byte :: rest.flatMap fun later => [[colon], firstPiece later]

theorem copydata_one (om : Mbuf) (moff : Nat) (h : moff < om.length) :
    om.copydata moff 1 = (0, [om[moff]]) := by
  have hdrop : om.drop moff = om[moff] :: om.drop (moff + 1) := List.drop_eq_getElem_cons h
  simp only [Mbuf.copydata, hdrop, List.take_succ_cons, List.take_zero, List.length_singleton,
    if_true]

-- Behind the first byte every byte is printed with a colon of its own.
theorem mbufToSLoop_later (om : Mbuf) (n moff : Nat) (s : MbufStr) (hmoff : moff ≠ 0)
    (hend : moff + n = om.length) :
    mbufToSLoop om n moff s =
      s.printAll ((om.drop moff).flatMap fun later => [[colon], firstPiece later]) := by
  induction n generalizing moff s with
  | zero =>
      rw [List.drop_of_length_le (by omega)]
      rfl
  | succ n ih =>
      have hin : moff < om.length := by omega
      rw [List.drop_eq_getElem_cons hin, List.flatMap_cons]
      have hcolon : ascii ":" = [colon] := rfl
      have hpiece : ascii "0x" ++ hexByte om[moff] = firstPiece om[moff] := rfl
      simp only [mbufToSLoop, hmoff, ne_eq, not_false_eq_true, if_true, copydata_one om moff hin,
        not_true_eq_false, if_false, List.headD_cons, hcolon, hpiece]
      rw [ih (moff + 1) _ (Nat.succ_ne_zero moff) (by omega)]
      simp only [MbufStr.printAll, List.cons_append, List.nil_append, List.foldl_cons]

theorem mbufToS_texts (om : Mbuf) (cells : Nat → UInt8) (maxlen : Nat) :
    mbufToS om cells maxlen =
      MbufStr.printAll ⟨⟨cells, []⟩, 0, maxlen, false⟩ (mbufTexts om) := by
  cases om with
  | nil => rfl
  | cons byte rest =>
      have hlater := mbufToSLoop_later (byte :: rest) rest.length 1
      simp only [List.drop_one, List.tail_cons] at hlater
      rw [mbufToS, Mbuf.pktlen, List.length_cons, mbufToSLoop]
      simp only [ne_eq, not_true_eq_false, if_false, copydata_one (byte :: rest) 0 (Nat.succ_pos _),
        List.getElem_cons_zero, List.headD_cons, Nat.zero_add]
      rw [hlater _ Nat.one_ne_zero (by rw [List.length_cons]; omega)]
      rfl

theorem mbufTexts_flatten (om : Mbuf) : (mbufTexts om).flatten = byteText om := by
  cases om with
  | nil => rfl
  | cons byte rest =>
      have hrest : (rest.flatMap fun later => [[colon], firstPiece later]).flatten =
          (rest.map laterPiece).flatten := by
        induction rest with
        | nil => rfl
        | cons later rest ih =>
            rw [List.flatMap_cons, List.flatten_append, ih, List.map_cons, List.flatten_cons]
            rfl
      rw [mbufTexts, List.flatten_cons, hrest, byteText_cons]

theorem mbufTexts_noNul (om : Mbuf) : ∀ text ∈ mbufTexts om, ∀ c ∈ text, c ≠ 0 := by
  cases om with
  | nil => simp [mbufTexts]
  | cons byte rest =>
      intro text htext
      rcases List.mem_cons.mp htext with rfl | hlater
      · exact firstPiece_noNul byte
      · obtain ⟨later, _, hmem⟩ := List.mem_flatMap.mp hlater
        rcases List.mem_cons.mp hmem with rfl | hpiece
        · intro c hc
          rw [List.mem_singleton.mp hc]
          decide
        · rw [List.mem_singleton.mp hpiece]
          exact firstPiece_noNul later

-- The counter is what is left of the buffer behind dst.
structure MbufStr.Counts (s : MbufStr) (maxlen : Nat) : Prop where
  wrapped : s.wrapped = false
  within : s.dst ≤ maxlen
  remlen : s.remlen = maxlen - s.dst

section Printing

variable {s : MbufStr} {maxlen : Nat}

theorem MbufStr.Counts.print (h : s.Counts maxlen) (hmax : maxlen < SIZE_MOD) (text : Text)
    (hfits : s.dst + text.length ≤ maxlen) : (s.print text).Counts maxlen where
  wrapped := by
    have hrem := h.remlen
    simp only [MbufStr.print, h.wrapped, Bool.false_or, decide_eq_false_iff_not]
    omega
  within := hfits
  remlen := by
    have hrem := h.remlen
    have hsub : s.remlen + SIZE_MOD - text.length = s.remlen - text.length + SIZE_MOD := by omega
    show (s.remlen + SIZE_MOD - text.length) % SIZE_MOD = maxlen - (s.dst + text.length)
    rw [hsub, Nat.add_mod_right, Nat.mod_eq_of_lt (by omega)]
    omega

theorem MbufStr.printAll_wrapped (texts : List Text) (h : s.wrapped = true) :
    (s.printAll texts).wrapped = true := by
  induction texts generalizing s with
  | nil => exact h
  | cons text rest ih => exact ih (by simp [MbufStr.print, h])

-- The counter wraps with the first text that is longer than what is left.
theorem MbufStr.Counts.printAll_iff (h : s.Counts maxlen) (hmax : maxlen < SIZE_MOD)
    (texts : List Text) :
    (s.printAll texts).wrapped = false ↔ s.dst + texts.flatten.length ≤ maxlen := by
  induction texts generalizing s with
  | nil => exact iff_of_true h.wrapped (by simpa using h.within)
  | cons text rest ih =>
      have hlength : s.dst + (text :: rest).flatten.length =
          s.dst + text.length + rest.flatten.length := by simp [Nat.add_assoc]
      rw [hlength]
      by_cases hfits : s.dst + text.length ≤ maxlen
      · exact ih (h.print hmax text hfits)
      · have hrem := h.remlen
        have hwithin := h.within
        have hwrapped : (s.print text).wrapped = true := by
          simp only [MbufStr.print, Bool.or_eq_true, decide_eq_true_eq]
          omega
        have hall := MbufStr.printAll_wrapped rest hwrapped
        rw [show s.printAll (text :: rest) = (s.print text).printAll rest from rfl, hall]
        exact iff_of_false (by simp) (by omega)

theorem MbufStr.Counts.inside (h : s.Counts maxlen) (hmax : maxlen < SIZE_MOD)
    (texts : List Text) (hfits : s.dst + texts.flatten.length ≤ maxlen)
    (hwritten : ∀ off ∈ s.str.written, off < maxlen) :
    ∀ off ∈ (s.printAll texts).str.written, off < maxlen := by
  induction texts generalizing s with
  | nil => exact hwritten
  | cons text rest ih =>
      rw [List.flatten_cons, List.length_append] at hfits
      refine ih (h.print hmax text (by omega)) (by show s.dst + text.length + _ ≤ _; omega) ?_
      intro off hoff
      have hrem := h.remlen
      rcases Buffer.snprintf_written s.str s.dst s.remlen text off hoff with hold | hnew
      · exact hwritten off hold
      · omega

theorem MbufStr.Counts.holds (h : s.Counts maxlen) (hmax : maxlen < SIZE_MOD)
    (texts : List Text) (hfits : s.dst + texts.flatten.length < maxlen)
    (htexts : ∀ text ∈ texts, ∀ c ∈ text, c ≠ 0) (front : Text) (hfront : s.str.Holds front)
    (hdst : s.dst = front.length) : (s.printAll texts).str.Holds (front ++ texts.flatten) := by
  induction texts generalizing s front with
  | nil =>
      rw [List.flatten_nil, List.append_nil]
      exact hfront
  | cons text rest ih =>
      rw [List.flatten_cons, List.length_append] at hfits
      rw [List.forall_mem_cons] at htexts
      have hrem := h.remlen
      have hwhole : text.take (s.remlen - 1) = text := List.take_of_length_le (by omega)
      have hprinted := hfront.snprintf s.remlen (by omega) text htexts.1
      rw [hwhole, ← hdst] at hprinted
      have hnext := ih (h.print hmax text (by omega)) (by show s.dst + text.length + _ < _; omega)
        htexts.2 (front ++ text) hprinted (by rw [List.length_append, ← hdst]; rfl)
      rw [List.flatten_cons, ← List.append_assoc]
      exact hnext

end Printing

theorem counts_start (cells : Nat → UInt8) (maxlen : Nat) :
    (⟨⟨cells, []⟩, 0, maxlen, false⟩ : MbufStr).Counts maxlen :=
  ⟨rfl, Nat.zero_le maxlen, rfl⟩

-- The first text is printed over whatever the buffer held.
theorem mbufToS_holds (om : Mbuf) (cells : Nat → UInt8) (maxlen : Nat) (hmax : maxlen < SIZE_MOD)
    (hsome : om ≠ []) (hfits : (byteText om).length < maxlen) :
    (mbufToS om cells maxlen).str.Holds (byteText om) := by
  cases om with
  | nil => exact absurd rfl hsome
  | cons byte rest =>
      have hnoNul := mbufTexts_noNul (byte :: rest)
      rw [← mbufTexts_flatten, mbufTexts, List.flatten_cons] at hfits ⊢
      rw [mbufTexts, List.forall_mem_cons] at hnoNul
      rw [List.length_append] at hfits
      have hwhole : (firstPiece byte).take (maxlen - 1) = firstPiece byte :=
        List.take_of_length_le (by omega)
      have hstart : (⟨cells, []⟩ : Buffer).Starts [] := fun i hi => absurd hi (Nat.not_lt_zero i)
      obtain ⟨hstarts, hends⟩ := hstart.snprintf maxlen (by omega) (firstPiece byte)
      rw [List.nil_append, hwhole] at hstarts hends
      have hcounts := (counts_start cells maxlen).print hmax (firstPiece byte)
        (by show 0 + _ ≤ _; omega)
      rw [mbufToS_texts]
      exact hcounts.holds hmax _ (by show 0 + (firstPiece byte).length + _ < _; omega) hnoNul.2
        (firstPiece byte) ⟨hstarts, hends, hnoNul.1⟩ (Nat.zero_add _)

-- The counter does not go below zero, nothing is written outside of the buffer, and a
-- text that has room is the one of bhd_hex_str.
structure AgreesWithHexStr (om : Mbuf) (cells : Nat → UInt8) (maxlen : Nat) : Prop where
  counter : (mbufToS om cells maxlen).wrapped = false
  inside : ∀ off ∈ (mbufToS om cells maxlen).str.written, off < maxlen
  agrees : (byteText om).length < maxlen → ∃ text, (mbufToS om cells maxlen).str.Holds text ∧
    ∀ dst maxDstLen, (byteText om).length < maxDstLen → (hexStrInto dst maxDstLen om).1.Holds text

theorem agrees_with_hexStr_iff (om : Mbuf) (cells : Nat → UInt8) (maxlen : Nat)
    (hpos : 1 ≤ maxlen) (hmax : maxlen < SIZE_MOD) :
    AgreesWithHexStr om cells maxlen ↔
      5 * om.length ≤ maxlen + 1 ∧ (om = [] → cells 0 = 0) := by
  have hlength := byteText_length om
  have hcounts := counts_start cells maxlen
  have hcounter : (mbufToS om cells maxlen).wrapped = false ↔ (byteText om).length ≤ maxlen := by
    rw [mbufToS_texts, hcounts.printAll_iff hmax, mbufTexts_flatten]
    simp only [Nat.zero_add]
  have hhex : ∀ (dst : Buffer) (maxDstLen : Nat), (byteText om).length < maxDstLen →
      (hexStrInto dst maxDstLen om).1.Holds (byteText om) := by
    intro dst maxDstLen hfits
    have hholds := (hexStrInto_holds dst maxDstLen (by omega) om).1
    rwa [hexStr_complete maxDstLen om (by omega)] at hholds
  constructor
  · intro h
    have hroom := hcounter.mp h.counter
    refine ⟨by omega, ?_⟩
    rintro rfl
    obtain ⟨text, htext, hsame⟩ := h.agrees hpos
    have hempty := hhex ⟨cells, []⟩ maxlen hpos
    rw [(hsame ⟨cells, []⟩ maxlen hpos).unique hempty] at htext
    exact (Buffer.holds_nil _).mp htext
  · rintro ⟨hroom, hempty⟩
    refine ⟨hcounter.mpr (by omega), ?_, ?_⟩
    · rw [mbufToS_texts]
      refine hcounts.inside hmax (mbufTexts om) ?_ ?_
      · rw [mbufTexts_flatten]
        show 0 + _ ≤ _
        omega
      · intro off hoff
        exact absurd hoff List.not_mem_nil
    · intro hfits
      refine ⟨byteText om, ?_, hhex⟩
      by_cases hsome : om = []
      · subst hsome
        exact (Buffer.holds_nil _).mpr (hempty rfl)
      · exact mbufToS_holds om cells maxlen hmax hsome hfits

-- The last text may take the whole buffer.
theorem nine_agrees : AgreesWithHexStr [0x01, 0xab] (fun _ => 0x41) 9 :=
  (agrees_with_hexStr_iff [0x01, 0xab] (fun _ => 0x41) 9 (by decide) (by decide)).mpr
    ⟨by decide, fun h => absurd h (by decide)⟩

-- With room for eight characters the second byte takes the counter below zero.
theorem eight_wraps : ¬AgreesWithHexStr [0x01, 0xab] (fun _ => 0) 8 := by
  intro h
  have hcounter := h.counter
  revert hcounter
  decide +kernel

end Blehostd
