import Mathlib
import SatSearch.Text.Utf8

/-!
# What decodes as UTF-8

The bytes of a character are a first byte, which announces the ranges of those that follow (`Lead`), and bytes
within these ranges (`exists_lead_codeBytes`, `codeBytes_of_lead`).
Main statement: bytes decode to a text exactly if they are the bytes of that text (`decode_eq_ok_iff`).
-/

namespace SatSearch.Text

/-! ### First bytes -/

/-- A first byte, its share of the code point, and the ranges of the bytes that have to follow it. A narrower
range leaves out code points that fewer bytes hold, surrogates, and what lies beyond the last code point. -/
inductive Lead : Nat → Nat → List (Nat × Nat) → Prop
  | one {b : Nat} (high : b < 0x80) : Lead b b []
  | two {b : Nat} (low : 0xC2 ≤ b) (high : b < 0xE0) : Lead b (b - 0xC0) [(0x80, 0xBF)]
  | three {b : Nat} (low : 0xE0 ≤ b) (high : b < 0xF0) :
      Lead b (b - 0xE0)
        [(if b = 0xE0 then 0xA0 else 0x80, if b = 0xED then 0x9F else 0xBF), (0x80, 0xBF)]
  | four {b : Nat} (low : 0xF0 ≤ b) (high : b < 0xF5) :
      Lead b (b - 0xF0)
        [(if b = 0xF0 then 0x90 else 0x80, if b = 0xF4 then 0x8F else 0xBF), (0x80, 0xBF), (0x80, 0xBF)]

theorem leadByte_eq_some_iff {b code : Nat} {ranges : List (Nat × Nat)} :
    leadByte b = some (code, ranges) ↔ Lead b code ranges := by
  constructor
  · intro h
    unfold leadByte at h
    split_ifs at h with h1 h2 h3 h4 h5 h6 h7 h8 h9
    all_goals
      simp only [Option.some.injEq, Prod.mk.injEq] at h
      obtain ⟨rfl, rfl⟩ := h
    · exact .one h1
    · exact .two (by omega) h3
    · exact h4 ▸ .three (b := 0xE0) (by omega) (by omega)
    · exact h5 ▸ .three (b := 0xED) (by omega) (by omega)
    · simpa [h4, h5] using Lead.three (b := b) (by omega) h6
    · exact h7 ▸ .four (b := 0xF0) (by omega) (by omega)
    · simpa [h7, h8.ne] using Lead.four (b := b) (by omega) (by omega)
    · exact h9 ▸ .four (b := 0xF4) (by omega) (by omega)
  · intro h
    cases h with
    | one high => rw [leadByte, if_pos high]
    | two low high => rw [leadByte, if_neg (by omega), if_neg (by omega), if_pos high]
    | three low high =>
      rw [leadByte, if_neg (by omega), if_neg (by omega), if_neg (by omega)]
      split_ifs <;> simp_all
    | four low high =>
      rw [leadByte, if_neg (by omega), if_neg (by omega), if_neg (by omega), if_neg (by omega),
        if_neg (by omega), if_neg (by omega)]
      have hlast : b < 0xF4 ∨ b = 0xF4 := by omega
      split_ifs <;> simp_all

/-! ### The bytes behind them -/

/-- Whether a byte lies in a range. -/
def InRange (b : Nat) (r : Nat × Nat) : Prop :=
  r.1 ≤ b ∧ b ≤ r.2

/-- The code point of which a first byte holds a share and these bytes the rest. -/
def joinCode (code : Nat) (bytes : List Nat) : Nat :=
  bytes.foldl (fun n b => n * 64 + (b - 0x80)) code

theorem joinCode_cons (code b : Nat) (bytes : List Nat) :
    joinCode code (b :: bytes) = joinCode (code * 64 + (b - 0x80)) bytes :=
  List.foldl_cons ..

theorem continuation_eq_ok_iff {code n : Nat} {ranges : List (Nat × Nat)} {bytes rest : List UInt8} :
    continuation code ranges bytes = .ok (n, rest) ↔
      ∃ front, bytes = front ++ rest ∧ List.Forall₂ InRange (front.map UInt8.toNat) ranges ∧
        n = joinCode code (front.map UInt8.toNat) := by
  induction ranges generalizing code bytes with
  | nil => simp [continuation, joinCode, eq_comm, and_comm]
  | cons r ranges ih =>
    cases bytes with
    | nil => simp [continuation]
    | cons b bytes =>
      rw [continuation]
      constructor
      · intro h
        split at h
        · next hb =>
          obtain ⟨front, rfl, hfront, hn⟩ := ih.1 h
          exact ⟨b :: front, rfl, .cons hb hfront, hn.trans (joinCode_cons code b.toNat _).symm⟩
        · cases h
      · rintro ⟨front, hbytes, hfront, hn⟩
        cases front with
        | nil => cases hfront
        | cons c front =>
          rw [List.cons_append, List.cons.injEq] at hbytes
          obtain ⟨rfl, rfl⟩ := hbytes
          rw [List.map_cons] at hfront hn
          obtain ⟨hb, hfront⟩ := List.forall₂_cons.1 hfront
          have hrange : r.1 ≤ b.toNat ∧ b.toNat ≤ r.2 := hb
          rw [if_pos hrange]
          exact ih.2 ⟨front, rfl, hfront, hn.trans (joinCode_cons code b.toNat _)⟩

/-! ### Characters -/

/-- The bytes of a character, by its code point. -/
def codeBytes (n : Nat) : List Nat :=
  if n ≤ 0x7F then [n]
  else if n ≤ 0x7FF then [n / 64 + 0xC0, n % 64 + 0x80]
  else if n ≤ 0xFFFF then [n / 4096 + 0xE0, n / 64 % 64 + 0x80, n % 64 + 0x80]
  else [n / 262144 + 0xF0, n / 4096 % 64 + 0x80, n / 64 % 64 + 0x80, n % 64 + 0x80]

theorem map_toNat_encodeChar (c : Char) : (String.utf8EncodeChar c).map UInt8.toNat = codeBytes c.toNat := by
  have hvalid : c.toNat.isValidChar := c.valid
  have hval : c.val.toNat = c.toNat := rfl
  unfold Nat.isValidChar at hvalid
  simp only [String.utf8EncodeChar, codeBytes, hval]
  split_ifs <;> simp <;> omega

/-- The bytes of a code point are those that its first byte announces. -/
theorem exists_lead_codeBytes {n : Nat} (h : n.isValidChar) :
    ∃ b front code ranges, codeBytes n = b :: front ∧ Lead b code ranges ∧
      List.Forall₂ InRange front ranges ∧ joinCode code front = n := by
  unfold Nat.isValidChar at h
  have htail (m : Nat) : InRange (m % 64 + 0x80) (0x80, 0xBF) := ⟨by omega, by omega⟩
  unfold codeBytes
  split_ifs with h1 h2 h3
  · exact ⟨_, _, _, _, rfl, .one (by omega), .nil, rfl⟩
  · refine ⟨_, _, _, _, rfl, .two (by omega) (by omega), .cons (htail n) .nil, ?_⟩
    show (n / 64 + 0xC0 - 0xC0) * 64 + (n % 64 + 0x80 - 0x80) = n
    omega
  · refine ⟨_, _, _, _, rfl, .three (by omega) (by omega), .cons ⟨?_, ?_⟩ (.cons (htail n) .nil), ?_⟩
    · dsimp only
      split_ifs <;> omega
    · dsimp only
      split_ifs <;> omega
    · show ((n / 4096 + 0xE0 - 0xE0) * 64 + (n / 64 % 64 + 0x80 - 0x80)) * 64 + (n % 64 + 0x80 - 0x80) = n
      omega
  · refine ⟨_, _, _, _, rfl, .four (by omega) (by omega),
      .cons ⟨?_, ?_⟩ (.cons (htail (n / 64)) (.cons (htail n) .nil)), ?_⟩
    · dsimp only
      split_ifs <;> omega
    · dsimp only
      split_ifs <;> omega
    · show (((n / 262144 + 0xF0 - 0xF0) * 64 + (n / 4096 % 64 + 0x80 - 0x80)) * 64 +
        (n / 64 % 64 + 0x80 - 0x80)) * 64 + (n % 64 + 0x80 - 0x80) = n
      omega

/-- Bytes that a first byte announces are those of a code point. -/
theorem codeBytes_of_lead {b code n : Nat} {front : List Nat} {ranges : List (Nat × Nat)}
    (h : Lead b code ranges) (hfront : List.Forall₂ InRange front ranges) (hn : n = joinCode code front) :
    n.isValidChar ∧ codeBytes n = b :: front := by
  unfold Nat.isValidChar codeBytes
  cases h with
  | one high =>
    cases hfront
    have hn : n = b := hn
    rw [if_pos (by omega), hn]
    exact ⟨.inl (by omega), rfl⟩
  | two low high =>
    obtain ⟨x, _, ⟨hx, hx'⟩, hnil, rfl⟩ := List.forall₂_cons_right_iff.1 hfront
    cases hnil
    have hn : n = (b - 0xC0) * 64 + (x - 0x80) := hn
    dsimp only at hx hx'
    rw [if_neg (by omega), if_pos (by omega), List.cons.injEq, List.cons.injEq]
    exact ⟨.inl (by omega), by omega, by omega, rfl⟩
  | three low high =>
    obtain ⟨x, _, ⟨hx, hx'⟩, hrest, rfl⟩ := List.forall₂_cons_right_iff.1 hfront
    obtain ⟨y, _, ⟨hy, hy'⟩, hnil, rfl⟩ := List.forall₂_cons_right_iff.1 hrest
    cases hnil
    have hn : n = ((b - 0xE0) * 64 + (x - 0x80)) * 64 + (y - 0x80) := hn
    dsimp only at hx hx' hy hy'
    have hlong : b = 0xE0 → 0xA0 ≤ x := fun hb => by rwa [if_pos hb] at hx
    have hshort : b = 0xED → x ≤ 0x9F := fun hb => by rwa [if_pos hb] at hx'
    have hlow : 0x80 ≤ x := by split_ifs at hx <;> omega
    have hhigh : x ≤ 0xBF := by split_ifs at hx' <;> omega
    rw [if_neg (by omega), if_neg (by omega), if_pos (by omega), List.cons.injEq, List.cons.injEq,
      List.cons.injEq]
    exact ⟨by omega, by omega, by omega, by omega, rfl⟩
  | four low high =>
    obtain ⟨x, _, ⟨hx, hx'⟩, hrest, rfl⟩ := List.forall₂_cons_right_iff.1 hfront
    obtain ⟨y, _, ⟨hy, hy'⟩, hlast, rfl⟩ := List.forall₂_cons_right_iff.1 hrest
    obtain ⟨z, _, ⟨hz, hz'⟩, hnil, rfl⟩ := List.forall₂_cons_right_iff.1 hlast
    cases hnil
    have hn : n = (((b - 0xF0) * 64 + (x - 0x80)) * 64 + (y - 0x80)) * 64 + (z - 0x80) := hn
    dsimp only at hx hx' hy hy' hz hz'
    have hlong : b = 0xF0 → 0x90 ≤ x := fun hb => by rwa [if_pos hb] at hx
    have hshort : b = 0xF4 → x ≤ 0x8F := fun hb => by rwa [if_pos hb] at hx'
    have hlow : 0x80 ≤ x := by split_ifs at hx <;> omega
    have hhigh : x ≤ 0xBF := by split_ifs at hx' <;> omega
    rw [if_neg (by omega), if_neg (by omega), if_neg (by omega), List.cons.injEq, List.cons.injEq,
      List.cons.injEq, List.cons.injEq]
    exact ⟨by omega, by omega, by omega, by omega, by omega, rfl⟩

/-! ### Texts -/

theorem encode_cons (c : Char) (s : List Char) : encode (c :: s) = String.utf8EncodeChar c ++ encode s :=
  List.flatMap_cons

/-- One round of the decoder reads the bytes of one character. -/
theorem exists_leadByte_encodeChar (c : Char) (rest : List UInt8) :
    ∃ b front code ranges, String.utf8EncodeChar c = b :: front ∧ leadByte b.toNat = some (code, ranges) ∧
      continuation code ranges (front ++ rest) = .ok (c.toNat, rest) := by
  obtain ⟨b, front, code, ranges, hbytes, hlead, hfront, hcode⟩ := exists_lead_codeBytes c.valid
  rw [show c.val.toNat = c.toNat from rfl, ← map_toNat_encodeChar] at hbytes
  obtain ⟨b, front, hchar, rfl, rfl⟩ := List.map_eq_cons_iff.1 hbytes
  exact ⟨b, front, code, ranges, hchar, leadByte_eq_some_iff.2 hlead,
    continuation_eq_ok_iff.2 ⟨front, rfl, hfront, hcode.symm⟩⟩

theorem encodeChar_of_continuation {b : UInt8} {code n : Nat} {ranges : List (Nat × Nat)}
    {bytes rest : List UInt8} (hlead : leadByte b.toNat = some (code, ranges))
    (h : continuation code ranges bytes = .ok (n, rest)) :
    b :: bytes = String.utf8EncodeChar (Char.ofNat n) ++ rest := by
  obtain ⟨front, rfl, hfront, hn⟩ := continuation_eq_ok_iff.1 h
  obtain ⟨hvalid, hbytes⟩ := codeBytes_of_lead (leadByte_eq_some_iff.1 hlead) hfront hn
  have hcode : (Char.ofNat n).toNat = n := by rw [Char.toNat_ofNat, if_pos hvalid]
  have hmap : (String.utf8EncodeChar (Char.ofNat n)).map UInt8.toNat = (b :: front).map UInt8.toNat := by
    rw [map_toNat_encodeChar, hcode, hbytes, List.map_cons]
  rw [List.map_injective_iff.2 (fun _ _ => UInt8.toNat_inj.1) hmap, List.cons_append]

theorem decodeFrom_encode (s done : List Char) (offset : Nat) :
    decodeFrom offset done (encode s) = .ok (done.reverse ++ s) := by
  induction s generalizing done offset with
  | nil =>
    rw [show encode [] = [] from rfl, decodeFrom, List.append_nil]
  | cons c s ih =>
    obtain ⟨b, front, code, ranges, hchar, hlead, hrest⟩ := exists_leadByte_encodeChar c (encode s)
    rw [encode_cons, hchar, List.cons_append, decodeFrom]
    simp only [hlead]
    split
    · next fault hfault => rw [hrest] at hfault; cases hfault
    · next n rest hn =>
      rw [hrest] at hn
      cases hn
      rw [ih, Char.ofNat_toNat, List.reverse_cons, List.append_assoc, List.singleton_append]

theorem exists_of_decodeFrom {offset : Nat} {done t : List Char} {bytes : List UInt8}
    (h : decodeFrom offset done bytes = .ok t) : ∃ s, bytes = encode s ∧ t = done.reverse ++ s := by
  fun_induction decodeFrom offset done bytes with
  | case1 => exact ⟨[], rfl, by rw [← Except.ok.inj h, List.append_nil]⟩
  | case2 => cases h
  | case3 => cases h
  | case4 offset done b rest code ranges hlead n rest' hrest ih =>
    obtain ⟨s, rfl, rfl⟩ := ih h
    refine ⟨Char.ofNat n :: s, ?_, ?_⟩
    · rw [encode_cons, encodeChar_of_continuation hlead hrest]
    · rw [List.reverse_cons, List.append_assoc, List.singleton_append]

/-- Bytes decode to a text exactly if they are its bytes. -/
theorem decode_eq_ok_iff {bytes : List UInt8} {s : List Char} : decode bytes = .ok s ↔ bytes = encode s := by
  constructor
  · intro h
    obtain ⟨t, rfl, rfl⟩ := exists_of_decodeFrom h
    rfl
  · rintro rfl
    exact decodeFrom_encode s [] 0

end SatSearch.Text
