import TextColumns.Text.Utf8
import TextColumns.Proofs.Text.Cursor

namespace TextColumns.Text

theorem takeFollowers_cons {taken : Nat} {range : ByteRange} {ranges : List ByteRange}
    {bytes after : List UInt8} (htake : takeFollowers taken (range :: ranges) bytes = .ok after) :
    ∃ b rest, bytes = b :: rest ∧ range.low.toNat ≤ b.toNat ∧ b.toNat ≤ range.high.toNat ∧
      takeFollowers (taken + 1) ranges rest = .ok after := by
  cases bytes with
  | nil => cases htake
  | cons b rest =>
      simp only [takeFollowers, Bool.and_eq_true, decide_eq_true_eq] at htake
      by_cases hrange : range.low ≤ b ∧ b ≤ range.high
      · rw [if_pos hrange] at htake
        exact ⟨b, rest, rfl, UInt8.le_iff_toNat_le.mp hrange.1, UInt8.le_iff_toNat_le.mp hrange.2,
          htake⟩
      · rw [if_neg hrange] at htake
        cases htake

theorem takeFollowers_anyContinuation {taken : Nat} {ranges : List ByteRange}
    {bytes after : List UInt8}
    (htake : takeFollowers taken (anyContinuation :: ranges) bytes = .ok after) :
    ∃ b rest, bytes = b :: rest ∧ 0x80 ≤ b.toNat ∧ b.toNat ≤ 0xBF ∧
      takeFollowers (taken + 1) ranges rest = .ok after :=
  takeFollowers_cons htake

theorem exists_char {v : Nat} (hv : v < 0xD800 ∨ (0xDFFF < v ∧ v < 0x110000)) :
    ∃ c : Char, c.val.toNat = v :=
  ⟨Char.ofNatAux v hv, rfl⟩

theorem ofNat_eq {n : Nat} {b : UInt8} (hn : n = b.toNat) : UInt8.ofNat n = b := by
  rw [hn, UInt8.ofNat_toNat]

theorem exists_encode_one {b : UInt8} (hb : b.toNat < 0x80) :
    ∃ c, String.utf8EncodeChar c = [b] := by
  obtain ⟨c, hc⟩ := @exists_char b.toNat (by omega)
  refine ⟨c, ?_⟩
  simp only [String.utf8EncodeChar, hc]
  rw [if_pos (by omega), ofNat_eq rfl]

theorem exists_encode_two {lead b : UInt8} (hlead : 0xC2 ≤ lead.toNat) (hlead' : lead.toNat < 0xE0)
    (hb : 0x80 ≤ b.toNat) (hb' : b.toNat ≤ 0xBF) :
    ∃ c, String.utf8EncodeChar c = [lead, b] := by
  obtain ⟨c, hc⟩ := @exists_char ((lead.toNat - 0xC0) * 64 + (b.toNat - 0x80)) (by omega)
  refine ⟨c, ?_⟩
  simp only [String.utf8EncodeChar, hc]
  rw [if_neg (by omega), if_pos (by omega), ofNat_eq (b := lead) (by omega),
    ofNat_eq (b := b) (by omega)]

theorem exists_encode_three {lead b d : UInt8} {high : Nat}
    (hhigh : high = (lead.toNat - 0xE0) * 64 + (b.toNat - 0x80))
    (hlead : 0xE0 ≤ lead.toNat) (hlead' : lead.toNat < 0xF0)
    (hb : 0x80 ≤ b.toNat) (hb' : b.toNat ≤ 0xBF) (hd : 0x80 ≤ d.toNat) (hd' : d.toNat ≤ 0xBF)
    (hlong : 0x20 ≤ high) (hscalar : high < 0x360 ∨ 0x37F < high) :
    ∃ c, String.utf8EncodeChar c = [lead, b, d] := by
  obtain ⟨c, hc⟩ := @exists_char (high * 64 + (d.toNat - 0x80)) (by omega)
  refine ⟨c, ?_⟩
  simp only [String.utf8EncodeChar, hc]
  rw [if_neg (by omega), if_neg (by omega), if_pos (by omega), ofNat_eq (b := lead) (by omega),
    ofNat_eq (b := b) (by omega), ofNat_eq (b := d) (by omega)]

theorem exists_encode_four {lead b d e : UInt8} {high : Nat}
    (hhigh : high = (lead.toNat - 0xF0) * 64 + (b.toNat - 0x80))
    (hlead : 0xF0 ≤ lead.toNat) (hb : 0x80 ≤ b.toNat) (hb' : b.toNat ≤ 0xBF)
    (hd : 0x80 ≤ d.toNat) (hd' : d.toNat ≤ 0xBF) (he : 0x80 ≤ e.toNat) (he' : e.toNat ≤ 0xBF)
    (hlong : 0x10 ≤ high) (hscalar : high < 0x110) :
    ∃ c, String.utf8EncodeChar c = [lead, b, d, e] := by
  have hlow : (d.toNat - 0x80) * 64 + (e.toNat - 0x80) < 0x1000 := by omega
  obtain ⟨c, hc⟩ :=
    @exists_char (high * 4096 + ((d.toNat - 0x80) * 64 + (e.toNat - 0x80))) (by omega)
  refine ⟨c, ?_⟩
  simp only [String.utf8EncodeChar, hc]
  rw [if_neg (by omega), if_neg (by omega), if_neg (by omega), ofNat_eq (b := lead) (by omega),
    ofNat_eq (b := b) (by omega), ofNat_eq (b := d) (by omega), ofNat_eq (b := e) (by omega)]

/-- What the table of leading bytes says about the bits of a character that come from the first two
bytes. -/
theorem followers?_eq_some {lead : UInt8} {ranges : List ByteRange}
    (hranges : followers? lead = some ranges) :
    (ranges = [] ∧ lead.toNat < 0x80) ∨
      (ranges = [anyContinuation] ∧ 0xC2 ≤ lead.toNat ∧ lead.toNat < 0xE0) ∨
      (∃ low high, ranges = [⟨low, high⟩, anyContinuation] ∧
        0xE0 ≤ lead.toNat ∧ lead.toNat < 0xF0 ∧ 0x80 ≤ low.toNat ∧ high.toNat ≤ 0xBF ∧
        0x20 ≤ (lead.toNat - 0xE0) * 64 + (low.toNat - 0x80) ∧
        ((lead.toNat - 0xE0) * 64 + (high.toNat - 0x80) < 0x360 ∨
          0x37F < (lead.toNat - 0xE0) * 64 + (low.toNat - 0x80))) ∨
      (∃ low high, ranges = [⟨low, high⟩, anyContinuation, anyContinuation] ∧
        0xF0 ≤ lead.toNat ∧ 0x80 ≤ low.toNat ∧ high.toNat ≤ 0xBF ∧
        0x10 ≤ (lead.toNat - 0xF0) * 64 + (low.toNat - 0x80) ∧
        (lead.toNat - 0xF0) * 64 + (high.toNat - 0x80) < 0x110) := by
  simp only [followers?, UInt8.lt_iff_toNat_lt, beq_iff_eq, ← UInt8.toNat_inj,
    UInt8.reduceToNat] at hranges
  repeat' split at hranges
  all_goals cases hranges
  · exact .inl ⟨rfl, by omega⟩
  · exact .inr (.inl ⟨rfl, by omega, by omega⟩)
  iterate 3
    · refine .inr (.inr (.inl ⟨_, _, rfl, by omega, by omega, by decide, by decide, ?_⟩))
      simp only [UInt8.reduceToNat]
      omega
  iterate 3
    · refine .inr (.inr (.inr ⟨_, _, rfl, by omega, by decide, by decide, ?_⟩))
      simp only [UInt8.reduceToNat]
      omega

/-- A leading byte and the bytes that must follow it encode a character. -/
theorem exists_char_of_takeFollowers {lead : UInt8} {ranges : List ByteRange}
    {rest after : List UInt8} (hranges : followers? lead = some ranges)
    (htake : takeFollowers 1 ranges rest = .ok after) :
    ∃ c, lead :: rest = String.utf8EncodeChar c ++ after := by
  rcases followers?_eq_some hranges with ⟨rfl, hlead⟩ | ⟨rfl, hlow, hhigh⟩ |
    ⟨low, high, rfl, hlow, hhigh, hbyte, hbyte', hlong, hscalar⟩ |
    ⟨low, high, rfl, hlow, hbyte, hbyte', hlong, hscalar⟩
  · cases htake
    obtain ⟨c, hc⟩ := exists_encode_one hlead
    exact ⟨c, by rw [hc]; rfl⟩
  · obtain ⟨b, rest, rfl, hb, hb', htake⟩ := takeFollowers_anyContinuation htake
    cases htake
    obtain ⟨c, hc⟩ := @exists_encode_two lead b hlow hhigh hb hb'
    exact ⟨c, by rw [hc]; rfl⟩
  · obtain ⟨b, rest, rfl, hb, hb', htake⟩ := takeFollowers_cons htake
    obtain ⟨d, rest, rfl, hd, hd', htake⟩ := takeFollowers_anyContinuation htake
    cases htake
    obtain ⟨c, hc⟩ := @exists_encode_three lead b d _ rfl hlow hhigh (Nat.le_trans hbyte hb)
      (Nat.le_trans hb' hbyte') hd hd' (by simp only at hb; omega) (by simp only at hb hb'; omega)
    exact ⟨c, by rw [hc]; rfl⟩
  · obtain ⟨b, rest, rfl, hb, hb', htake⟩ := takeFollowers_cons htake
    obtain ⟨d, rest, rfl, hd, hd', htake⟩ := takeFollowers_anyContinuation htake
    obtain ⟨e, rest, rfl, he, he', htake⟩ := takeFollowers_anyContinuation htake
    cases htake
    obtain ⟨c, hc⟩ := @exists_encode_four lead b d e _ rfl hlow (Nat.le_trans hbyte hb)
      (Nat.le_trans hb' hbyte') hd hd' he he' (by simp only at hb; omega)
      (by simp only at hb'; omega)
    exact ⟨c, by rw [hc]; rfl⟩

theorem toList_loop_eq (bytes : ByteArray) (i : Nat) (found : List UInt8) :
    ByteArray.toList.loop bytes i found = found.reverse ++ bytes.data.toList.drop i := by
  fun_induction ByteArray.toList.loop bytes i found with
  | case1 i found hlt ih =>
      have hget : bytes.data.toList.drop i = bytes.get! i :: bytes.data.toList.drop (i + 1) := by
        rw [List.drop_eq_getElem_cons (Array.length_toList ▸ hlt)]
        congr 1
        exact (getElem!_pos bytes.data i hlt).symm
      rw [ih, hget, List.reverse_cons, List.append_assoc, List.singleton_append]
  | case2 i found hge =>
      rw [List.drop_eq_nil_of_le (Array.length_toList ▸ Nat.le_of_not_lt hge), List.append_nil]

theorem toByteArray_toList (bytes : ByteArray) : bytes.toList.toByteArray = bytes := by
  rw [ByteArray.toList, toList_loop_eq]
  apply ByteArray.ext
  simp

theorem isValidUTF8_of_utf8FaultFrom {offset : Nat} {bytes : List UInt8}
    (hfault : utf8FaultFrom offset bytes = none) : bytes.toByteArray.IsValidUTF8 := by
  fun_induction utf8FaultFrom offset bytes with
  | case1 => exact ByteArray.isValidUTF8_empty
  | case2 => cases hfault
  | case3 => cases hfault
  | case4 offset lead rest ranges hranges after htake _ ih =>
      obtain ⟨c, hc⟩ := exists_char_of_takeFollowers hranges htake
      rw [hc, List.toByteArray_append]
      exact Char.isValidUTF8_toByteArray_utf8EncodeChar.append (ih hfault)

theorem isValidUTF8_of_utf8Fault? {bytes : ByteArray} (hfault : utf8Fault? bytes = none) :
    bytes.IsValidUTF8 := by
  have hvalid := isValidUTF8_of_utf8FaultFrom hfault
  rwa [toByteArray_toList] at hvalid

theorem takeFollowers_ofNat {taken n : Nat} {range : ByteRange} {ranges : List ByteRange}
    {rest : List UInt8} (hlow : range.low.toNat ≤ n) (hhigh : n ≤ range.high.toNat) :
    takeFollowers taken (range :: ranges) (UInt8.ofNat n :: rest) =
      takeFollowers (taken + 1) ranges rest := by
  have hbyte : (UInt8.ofNat n).toNat = n :=
    UInt8.toNat_ofNat_of_lt' (Nat.lt_of_le_of_lt hhigh range.high.toNat_lt)
  have hrange : (range.low ≤ UInt8.ofNat n && UInt8.ofNat n ≤ range.high) = true := by
    simp only [Bool.and_eq_true, decide_eq_true_eq, UInt8.le_iff_toNat_le, hbyte]
    exact ⟨hlow, hhigh⟩
  rw [takeFollowers, if_pos hrange]

theorem takeFollowers_ofNat_any {taken n : Nat} {ranges : List ByteRange} {rest : List UInt8}
    (hlow : 0x80 ≤ n) (hhigh : n ≤ 0xBF) :
    takeFollowers taken (anyContinuation :: ranges) (UInt8.ofNat n :: rest) =
      takeFollowers (taken + 1) ranges rest :=
  takeFollowers_ofNat hlow hhigh

theorem followers?_ofNat {n : Nat} (hn : n < 256) :
    followers? (UInt8.ofNat n) =
      if n < 0x80 then some []
      else if n < 0xC2 then none
      else if n < 0xE0 then some [anyContinuation]
      else if n = 0xE0 then some [⟨0xA0, 0xBF⟩, anyContinuation]
      else if n = 0xED then some [⟨0x80, 0x9F⟩, anyContinuation]
      else if n < 0xF0 then some [anyContinuation, anyContinuation]
      else if n = 0xF0 then some [⟨0x90, 0xBF⟩, anyContinuation, anyContinuation]
      else if n < 0xF4 then some [anyContinuation, anyContinuation, anyContinuation]
      else if n = 0xF4 then some [⟨0x80, 0x8F⟩, anyContinuation, anyContinuation]
      else none := by
  have hbyte : (UInt8.ofNat n).toNat = n := UInt8.toNat_ofNat_of_lt' hn
  simp only [followers?, UInt8.lt_iff_toNat_lt, beq_iff_eq, ← UInt8.toNat_inj, hbyte,
    UInt8.reduceToNat]

/-- Whether bytes are a leading byte and those that it asks for, with the rest behind them. -/
def Leads (bytes rest : List UInt8) : Prop :=
  ∃ lead ranges followers, bytes = lead :: followers ∧ followers? lead = some ranges ∧
    takeFollowers 1 ranges followers = .ok rest

theorem leads_one {n : Nat} (hn : n < 0x80) (rest : List UInt8) :
    Leads (UInt8.ofNat n :: rest) rest := by
  refine ⟨_, [], rest, rfl, ?_, rfl⟩
  rw [followers?_ofNat (by omega), if_pos hn]

theorem leads_two {n b : Nat} (hn : 0xC2 ≤ n) (hn' : n < 0xE0) (hb : 0x80 ≤ b) (hb' : b ≤ 0xBF)
    (rest : List UInt8) : Leads (UInt8.ofNat n :: UInt8.ofNat b :: rest) rest := by
  refine ⟨_, [anyContinuation], _, rfl, ?_, ?_⟩
  · rw [followers?_ofNat (by omega), if_neg (by omega), if_neg (by omega), if_pos hn']
  · rw [takeFollowers_ofNat_any hb hb', takeFollowers]

theorem leads_three {n b d : Nat} (hn : 0xE0 ≤ n) (hn' : n < 0xF0) (hb : 0x80 ≤ b)
    (hb' : b ≤ 0xBF) (hd : 0x80 ≤ d) (hd' : d ≤ 0xBF) (hlong : n = 0xE0 → 0xA0 ≤ b)
    (hscalar : n = 0xED → b ≤ 0x9F) (rest : List UInt8) :
    Leads (UInt8.ofNat n :: UInt8.ofNat b :: UInt8.ofNat d :: rest) rest := by
  have hfollowers : ∃ low high : UInt8, followers? (UInt8.ofNat n) =
      some [⟨low, high⟩, anyContinuation] ∧ low.toNat ≤ b ∧ b ≤ high.toNat := by
    rw [followers?_ofNat (by omega), if_neg (by omega), if_neg (by omega), if_neg (by omega)]
    by_cases hfirst : n = 0xE0
    · rw [if_pos hfirst]
      exact ⟨_, _, rfl, hlong hfirst, hb'⟩
    by_cases hsurrogate : n = 0xED
    · rw [if_neg hfirst, if_pos hsurrogate]
      exact ⟨_, _, rfl, hb, hscalar hsurrogate⟩
    · rw [if_neg hfirst, if_neg hsurrogate, if_pos hn']
      exact ⟨_, _, rfl, hb, hb'⟩
  obtain ⟨low, high, hfollowers, hlow, hhigh⟩ := hfollowers
  refine ⟨_, _, _, rfl, hfollowers, ?_⟩
  rw [takeFollowers_ofNat hlow hhigh, takeFollowers_ofNat_any hd hd', takeFollowers]

theorem leads_four {n b d e : Nat} (hn : 0xF0 ≤ n) (hn' : n ≤ 0xF4) (hb : 0x80 ≤ b)
    (hb' : b ≤ 0xBF) (hd : 0x80 ≤ d) (hd' : d ≤ 0xBF) (he : 0x80 ≤ e) (he' : e ≤ 0xBF)
    (hlong : n = 0xF0 → 0x90 ≤ b) (hscalar : n = 0xF4 → b ≤ 0x8F) (rest : List UInt8) :
    Leads (UInt8.ofNat n :: UInt8.ofNat b :: UInt8.ofNat d :: UInt8.ofNat e :: rest) rest := by
  have hfollowers : ∃ low high : UInt8, followers? (UInt8.ofNat n) =
      some [⟨low, high⟩, anyContinuation, anyContinuation] ∧ low.toNat ≤ b ∧
        b ≤ high.toNat := by
    rw [followers?_ofNat (by omega), if_neg (by omega), if_neg (by omega), if_neg (by omega),
      if_neg (by omega), if_neg (by omega), if_neg (by omega)]
    by_cases hfirst : n = 0xF0
    · rw [if_pos hfirst]
      exact ⟨_, _, rfl, hlong hfirst, hb'⟩
    by_cases hbelow : n < 0xF4
    · rw [if_neg hfirst, if_pos hbelow]
      exact ⟨_, _, rfl, hb, hb'⟩
    · have hlast : n = 0xF4 := by omega
      rw [if_neg hfirst, if_neg hbelow, if_pos hlast]
      exact ⟨_, _, rfl, hb, hscalar hlast⟩
  obtain ⟨low, high, hfollowers, hlow, hhigh⟩ := hfollowers
  refine ⟨_, _, _, rfl, hfollowers, ?_⟩
  rw [takeFollowers_ofNat hlow hhigh, takeFollowers_ofNat_any hd hd',
    takeFollowers_ofNat_any he he', takeFollowers]

theorem leads_encode (c : Char) (rest : List UInt8) :
    Leads (String.utf8EncodeChar c ++ rest) rest := by
  have hscalar : c.val.toNat < 0xD800 ∨ (0xDFFF < c.val.toNat ∧ c.val.toNat < 0x110000) := c.valid
  rw [String.utf8EncodeChar]
  generalize c.val.toNat = v at hscalar
  split
  · exact leads_one (by omega) rest
  split
  · exact leads_two (by omega) (by omega) (by omega) (by omega) rest
  split
  · exact leads_three (by omega) (by omega) (by omega) (by omega) (by omega) (by omega)
      (by omega) (by omega) rest
  · exact leads_four (by omega) (by omega) (by omega) (by omega) (by omega) (by omega) (by omega)
      (by omega) (by omega) (by omega) rest

theorem utf8FaultFrom_of_leads {offset : Nat} {bytes rest : List UInt8}
    (hleads : Leads bytes rest) :
    ∃ next, utf8FaultFrom offset bytes = utf8FaultFrom next rest := by
  obtain ⟨lead, ranges, followers, rfl, hranges, htake⟩ := hleads
  refine ⟨offset + 1 + ranges.length, ?_⟩
  rw [utf8FaultFrom, hranges]
  dsimp only
  split
  next herror =>
    rw [htake] at herror
    cases herror
  next hafter =>
    rw [htake] at hafter
    cases hafter
    rfl

theorem utf8FaultFrom_encode (offset : Nat) (chars : List Char) :
    utf8FaultFrom offset (chars.flatMap String.utf8EncodeChar) = none := by
  induction chars generalizing offset with
  | nil => rw [List.flatMap_nil, utf8FaultFrom]
  | cons c rest ih =>
      rw [List.flatMap_cons]
      obtain ⟨next, hnext⟩ := utf8FaultFrom_of_leads (leads_encode c _)
      rw [hnext, ih]

theorem toList_utf8Encode (chars : List Char) :
    chars.utf8Encode.toList = chars.flatMap String.utf8EncodeChar := by
  rw [ByteArray.toList, toList_loop_eq, List.utf8Encode]
  simp

theorem utf8Fault?_eq_none {bytes : ByteArray} (hbytes : bytes.IsValidUTF8) :
    utf8Fault? bytes = none := by
  obtain ⟨chars, rfl⟩ := hbytes
  rw [utf8Fault?, toList_utf8Encode]
  exact utf8FaultFrom_encode 0 chars

end TextColumns.Text
