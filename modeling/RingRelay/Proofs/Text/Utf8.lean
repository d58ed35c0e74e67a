import RingRelay.Text.Utf8
import Mathlib.Tactic.Common
/- Bytes that are text: exactly what writing a text gives.

   The reader takes one byte at a time. It is described by what it reads from each of its states:
   the bytes that are still owed to the character under way, and then more characters. A first byte
   with the bytes that are owed to it is the encoding of a character, and every encoding has that
   form, so text is read back as it was written and nothing else is read as text. -/
namespace RingRelay.Utf8

/-- The characters that the bytes go on to, with nothing malformed: from between two characters, or
    from inside one. -/
def Reads (pending : Option Pending) (bs : Bytes) (cs : List Char) : Prop :=
  (scan pending bs).mapM id = some cs

variable {b : UInt8} {bs : Bytes} {cs : List Char} {p : Pending} {bits least greatest : Nat}

theorem mapM_some_cons {c : Char} {os : List (Option Char)} :
    (some c :: os).mapM id = some cs ↔ ∃ rest, cs = c :: rest ∧ os.mapM id = some rest := by
  cases h : os.mapM id <;> simp [h, eq_comm]

theorem mapM_none_cons {os : List (Option Char)} : (none :: os).mapM id ≠ some cs := by
  simp

/-! ## From one state of the reader to the next -/

theorem reads_nil : Reads none [] cs ↔ cs = [] := by
  simp [Reads, scan, eq_comm]

theorem not_reads_pending_nil : ¬ Reads (some p) [] cs := by
  simp [Reads, scan]

theorem reads_of_whole {c : Char} (h : lead b = .whole c) :
    Reads none (b :: bs) cs ↔ ∃ rest, cs = c :: rest ∧ Reads none bs rest := by
  simp only [Reads, scan, h, mapM_some_cons]

theorem reads_of_begins (h : lead b = .begins p) :
    Reads none (b :: bs) cs ↔ Reads (some p) bs cs := by
  simp only [Reads, scan, h]

theorem not_reads_of_malformed (h : lead b = .malformed) : ¬ Reads none (b :: bs) cs := by
  simp [Reads, scan, h]

theorem not_reads_of_outside (outside : ¬ (p.least ≤ b.toNat ∧ b.toNat ≤ p.greatest)) :
    ¬ Reads (some p) (b :: bs) cs := by
  unfold Reads
  rw [scan.eq_4, if_neg outside]
  split <;> exact mapM_none_cons

/-- The last byte that is owed ends the character. -/
theorem reads_last : Reads (some ⟨bits, 1, least, greatest⟩) bs cs ↔
    ∃ b rest cs', bs = b :: rest ∧ (least ≤ b.toNat ∧ b.toNat ≤ greatest) ∧
      cs = Char.ofNat (bits * 64 + (b.toNat - 0x80)) :: cs' ∧ Reads none rest cs' := by
  cases bs with
  | nil => simp [not_reads_pending_nil]
  | cons b rest =>
    by_cases inside : least ≤ b.toNat ∧ b.toNat ≤ greatest
    · have : Reads (some ⟨bits, 1, least, greatest⟩) (b :: rest) cs ↔
          ∃ cs', cs = Char.ofNat (bits * 64 + (b.toNat - 0x80)) :: cs' ∧ Reads none rest cs' := by
        simp only [Reads, scan, if_pos inside, Nat.le_refl, if_true, mapM_some_cons]
      rw [this]
      constructor
      · rintro ⟨cs', h⟩
        exact ⟨b, rest, cs', rfl, inside, h⟩
      · rintro ⟨_, _, cs', ⟨rfl, rfl⟩, -, h⟩
        exact ⟨cs', h⟩
    · refine iff_of_false (not_reads_of_outside inside) ?_
      rintro ⟨_, _, _, ⟨rfl, rfl⟩, inside', -⟩
      exact inside inside'

/-- Any other byte that is owed adds its bits. -/
theorem reads_further {m : Nat} : Reads (some ⟨bits, m + 2, least, greatest⟩) bs cs ↔
    ∃ b rest, bs = b :: rest ∧ (least ≤ b.toNat ∧ b.toNat ≤ greatest) ∧
      Reads (some ⟨bits * 64 + (b.toNat - 0x80), m + 1, 0x80, 0xbf⟩) rest cs := by
  cases bs with
  | nil => simp [not_reads_pending_nil]
  | cons b rest =>
    by_cases inside : least ≤ b.toNat ∧ b.toNat ≤ greatest
    · have : Reads (some ⟨bits, m + 2, least, greatest⟩) (b :: rest) cs ↔
          Reads (some ⟨bits * 64 + (b.toNat - 0x80), m + 1, 0x80, 0xbf⟩) rest cs := by
        simp only [Reads, scan, if_pos inside, if_neg (show ¬ m + 2 ≤ 1 by omega)]
        rfl
      rw [this]
      constructor
      · exact fun h => ⟨b, rest, rfl, inside, h⟩
      · rintro ⟨_, _, ⟨rfl, rfl⟩, -, h⟩
        exact h
    · refine iff_of_false (not_reads_of_outside inside) ?_
      rintro ⟨_, _, ⟨rfl, rfl⟩, inside', -⟩
      exact inside inside'

/-! ## The bytes of one character -/

theorem toNat_ofNat_of_valid {n : Nat} (h : n < 0xd800 ∨ 0xdfff < n ∧ n < 0x110000) :
    (Char.ofNat n).toNat = n := by
  rw [Char.ofNat, dif_pos h]
  rfl

theorem toNat_valid (c : Char) : c.toNat < 0xd800 ∨ 0xdfff < c.toNat ∧ c.toNat < 0x110000 :=
  c.valid

theorem ofNat_eq {n : Nat} (h : n % 256 = b.toNat) : UInt8.ofNat n = b := by
  rw [← UInt8.toNat_inj, UInt8.toNat_ofNat', h]

theorem lead_eq_whole {c : Char} (h : lead b = .whole c) :
    b.toNat < 0x80 ∧ c = Char.ofNat b.toNat := by
  dsimp only [lead] at h
  split at h
  next ascii => exact ⟨ascii, (Lead.whole.inj h).symm⟩
  next =>
    repeat' split at h
    all_goals cases h

/-- The first bytes of the characters with two, three and four bytes. The bounds on the next byte
    keep out what a shorter encoding has and what is no character. -/
theorem lead_eq_begins (h : lead b = .begins p) :
    (0x80 ≤ p.least ∧ p.greatest ≤ 0xbf) ∧
      ((p.missing = 1 ∧ b.toNat = 0xc0 + p.bits ∧ 2 ≤ p.bits ∧ p.bits < 0x20) ∨
       (p.missing = 2 ∧ b.toNat = 0xe0 + p.bits ∧ p.bits < 0x10 ∧
          (p.bits = 0 → 0xa0 ≤ p.least) ∧ (p.bits = 0xd → p.greatest ≤ 0x9f)) ∨
       (p.missing = 3 ∧ b.toNat = 0xf0 + p.bits ∧ p.bits ≤ 4 ∧
          (p.bits = 0 → 0x90 ≤ p.least) ∧ (p.bits = 4 → p.greatest ≤ 0x8f))) := by
  dsimp only [lead] at h
  repeat' split at h
  all_goals simp only [Lead.begins.injEq, reduceCtorEq] at h
  all_goals
    subst h
    dsimp only
    omega

theorem encodeChar_one (h : b.toNat < 0x80) : encodeChar (Char.ofNat b.toNat) = [b] := by
  have value := toNat_ofNat_of_valid (n := b.toNat) (by omega)
  simp [encodeChar, value, h]

theorem encodeChar_two {k : Nat} {b₁ : UInt8} (first : b.toNat = 0xc0 + k) (least : 2 ≤ k)
    (greatest : k < 0x20) (second : 0x80 ≤ b₁.toNat ∧ b₁.toNat ≤ 0xbf) :
    encodeChar (Char.ofNat (k * 64 + (b₁.toNat - 0x80))) = [b, b₁] := by
  obtain ⟨n, n_eq⟩ : ∃ n, n = k * 64 + (b₁.toNat - 0x80) := ⟨_, rfl⟩
  rw [← n_eq, encodeChar, toNat_ofNat_of_valid (by omega), if_neg (by omega), if_pos (by omega),
    ofNat_eq (b := b) (by omega), ofNat_eq (b := b₁) (by omega)]

theorem encodeChar_three {k : Nat} {b₁ b₂ : UInt8} (first : b.toNat = 0xe0 + k) (le : k < 0x10)
    (second : 0x80 ≤ b₁.toNat ∧ b₁.toNat ≤ 0xbf) (short : k = 0 → 0xa0 ≤ b₁.toNat)
    (surrogate : k = 0xd → b₁.toNat ≤ 0x9f) (third : 0x80 ≤ b₂.toNat ∧ b₂.toNat ≤ 0xbf) :
    encodeChar (Char.ofNat ((k * 64 + (b₁.toNat - 0x80)) * 64 + (b₂.toNat - 0x80))) =
      [b, b₁, b₂] := by
  obtain ⟨n, n_eq⟩ : ∃ n, n = (k * 64 + (b₁.toNat - 0x80)) * 64 + (b₂.toNat - 0x80) := ⟨_, rfl⟩
  rw [← n_eq, encodeChar, toNat_ofNat_of_valid (by omega), if_neg (by omega), if_neg (by omega),
    if_pos (by omega), ofNat_eq (b := b) (by omega), ofNat_eq (b := b₁) (by omega),
    ofNat_eq (b := b₂) (by omega)]

theorem encodeChar_four {k : Nat} {b₁ b₂ b₃ : UInt8} (first : b.toNat = 0xf0 + k) (le : k ≤ 4)
    (second : 0x80 ≤ b₁.toNat ∧ b₁.toNat ≤ 0xbf) (short : k = 0 → 0x90 ≤ b₁.toNat)
    (beyond : k = 4 → b₁.toNat ≤ 0x8f) (third : 0x80 ≤ b₂.toNat ∧ b₂.toNat ≤ 0xbf)
    (fourth : 0x80 ≤ b₃.toNat ∧ b₃.toNat ≤ 0xbf) :
    encodeChar (Char.ofNat (((k * 64 + (b₁.toNat - 0x80)) * 64 + (b₂.toNat - 0x80)) * 64 +
      (b₃.toNat - 0x80))) = [b, b₁, b₂, b₃] := by
  obtain ⟨n, n_eq⟩ : ∃ n, n = ((k * 64 + (b₁.toNat - 0x80)) * 64 + (b₂.toNat - 0x80)) * 64 +
    (b₃.toNat - 0x80) := ⟨_, rfl⟩
  rw [← n_eq, encodeChar, toNat_ofNat_of_valid (by omega), if_neg (by omega), if_neg (by omega),
    if_neg (by omega), ofNat_eq (b := b) (by omega), ofNat_eq (b := b₁) (by omega),
    ofNat_eq (b := b₂) (by omega), ofNat_eq (b := b₃) (by omega)]

/-- What is read begins with the encoding of the first character. -/
theorem exists_encodeChar_of_reads (h : Reads none (b :: bs) cs) : ∃ c rest cs',
    b :: bs = encodeChar c ++ rest ∧ cs = c :: cs' ∧ Reads none rest cs' := by
  cases begun : lead b with
  | malformed => exact absurd h (not_reads_of_malformed begun)
  | whole c =>
    obtain ⟨ascii, rfl⟩ := lead_eq_whole begun
    obtain ⟨cs', rfl, more⟩ := (reads_of_whole begun).mp h
    exact ⟨_, bs, cs', by rw [encodeChar_one ascii]; rfl, rfl, more⟩
  | begins p =>
    rw [reads_of_begins begun] at h
    -- One case for each number of bytes that the first byte announces.
    obtain ⟨k, missing, least, greatest⟩ := p
    obtain ⟨bounds, ⟨rfl, first, low, high⟩ | ⟨rfl, first, high, short, surrogate⟩ |
      ⟨rfl, first, high, short, beyond⟩⟩ := lead_eq_begins begun <;> dsimp only at *
    · obtain ⟨b₁, rest, cs', rfl, second, rfl, more⟩ := reads_last.mp h
      refine ⟨_, rest, cs', ?_, rfl, more⟩
      rw [encodeChar_two first low high (by omega)]
      rfl
    · obtain ⟨b₁, _, rfl, second, h⟩ := reads_further.mp h
      obtain ⟨b₂, rest, cs', rfl, third, rfl, more⟩ := reads_last.mp h
      refine ⟨_, rest, cs', ?_, rfl, more⟩
      rw [encodeChar_three first high (by omega) (by omega) (by omega) third]
      rfl
    · obtain ⟨b₁, _, rfl, second, h⟩ := reads_further.mp h
      obtain ⟨b₂, _, rfl, third, h⟩ := reads_further.mp h
      obtain ⟨b₃, rest, cs', rfl, fourth, rfl, more⟩ := reads_last.mp h
      refine ⟨_, rest, cs', ?_, rfl, more⟩
      rw [encodeChar_four first high (by omega) (by omega) (by omega) third fourth]
      rfl

theorem toNat_ofNat {n : Nat} (h : n < 256) : (UInt8.ofNat n).toNat = n :=
  UInt8.toNat_ofNat_of_lt' h

theorem lead_one {n : Nat} (h : n < 0x80) : lead (UInt8.ofNat n) = .whole (Char.ofNat n) := by
  rw [lead, toNat_ofNat (by omega)]
  exact if_pos h

theorem lead_two {n : Nat} (low : 0x80 ≤ n) (high : n < 0x800) :
    lead (UInt8.ofNat (0xc0 + n / 64)) = .begins ⟨n / 64, 1, 0x80, 0xbf⟩ := by
  rw [lead, toNat_ofNat (by omega)]
  rw [if_neg (by omega), if_neg (by omega), if_pos (by omega), Nat.add_sub_cancel_left]

theorem lead_three {n : Nat} (low : 0x800 ≤ n) (high : n < 0x10000)
    (valid : n < 0xd800 ∨ 0xdfff < n) : ∃ least greatest,
    lead (UInt8.ofNat (0xe0 + n / 4096)) = .begins ⟨n / 4096, 2, least, greatest⟩ ∧
      least ≤ 0x80 + n / 64 % 64 ∧ 0x80 + n / 64 % 64 ≤ greatest := by
  rw [lead, toNat_ofNat (by omega)]
  rw [if_neg (by omega), if_neg (by omega), if_neg (by omega)]
  split
  next first => exact ⟨_, _, by rw [show n / 4096 = 0 by omega], by omega, by omega⟩
  split
  next _ first => exact ⟨_, _, by rw [show n / 4096 = 0xd by omega], by omega, by omega⟩
  next =>
    rw [if_pos (by omega), Nat.add_sub_cancel_left]
    exact ⟨_, _, rfl, by omega, by omega⟩

theorem lead_four {n : Nat} (low : 0x10000 ≤ n) (high : n < 0x110000) : ∃ least greatest,
    lead (UInt8.ofNat (0xf0 + n / 262144)) = .begins ⟨n / 262144, 3, least, greatest⟩ ∧
      least ≤ 0x80 + n / 4096 % 64 ∧ 0x80 + n / 4096 % 64 ≤ greatest := by
  rw [lead, toNat_ofNat (by omega)]
  rw [if_neg (by omega), if_neg (by omega), if_neg (by omega), if_neg (by omega),
    if_neg (by omega), if_neg (by omega)]
  split
  next first => exact ⟨_, _, by rw [show n / 262144 = 0 by omega], by omega, by omega⟩
  split
  next =>
    rw [Nat.add_sub_cancel_left]
    exact ⟨_, _, rfl, by omega, by omega⟩
  next =>
    rw [if_pos (by omega)]
    exact ⟨_, _, by rw [show n / 262144 = 4 by omega], by omega, by omega⟩

/-- The encoding of a character is read as that character. -/
theorem reads_encodeChar_append (c : Char) (more : Reads none bs cs) :
    Reads none (encodeChar c ++ bs) (c :: cs) := by
  have valid := toNat_valid c
  unfold encodeChar
  dsimp only
  split
  next one =>
    exact (reads_of_whole (lead_one one)).mpr ⟨cs, by rw [Char.ofNat_toNat], more⟩
  split
  next _ two =>
    refine (reads_of_begins (lead_two (by omega) two)).mpr (reads_last.mpr ⟨_, _, cs, rfl, ?_⟩)
    rw [toNat_ofNat (by omega)]
    refine ⟨by omega, ?_, more⟩
    rw [show c.toNat / 64 * 64 + (0x80 + c.toNat % 64 - 0x80) = c.toNat by omega, Char.ofNat_toNat]
  split
  next _ _ three =>
    obtain ⟨least, greatest, begun, bounds⟩ := lead_three (n := c.toNat) (by omega) three (by omega)
    refine (reads_of_begins begun).mpr (reads_further.mpr ⟨_, _, rfl, ?_⟩)
    rw [toNat_ofNat (by omega)]
    refine ⟨bounds, reads_last.mpr ⟨_, _, cs, rfl, ?_⟩⟩
    rw [toNat_ofNat (by omega)]
    refine ⟨by omega, ?_, more⟩
    rw [show (c.toNat / 4096 * 64 + (0x80 + c.toNat / 64 % 64 - 0x80)) * 64 +
      (0x80 + c.toNat % 64 - 0x80) = c.toNat by omega, Char.ofNat_toNat]
  next _ _ _ =>
    obtain ⟨least, greatest, begun, bounds⟩ := lead_four (n := c.toNat) (by omega) (by omega)
    refine (reads_of_begins begun).mpr (reads_further.mpr ⟨_, _, rfl, ?_⟩)
    rw [toNat_ofNat (by omega)]
    refine ⟨bounds, reads_further.mpr ⟨_, _, rfl, ?_⟩⟩
    rw [toNat_ofNat (by omega)]
    refine ⟨by omega, reads_last.mpr ⟨_, _, cs, rfl, ?_⟩⟩
    rw [toNat_ofNat (by omega)]
    refine ⟨by omega, ?_, more⟩
    rw [show ((c.toNat / 262144 * 64 + (0x80 + c.toNat / 4096 % 64 - 0x80)) * 64 +
      (0x80 + c.toNat / 64 % 64 - 0x80)) * 64 + (0x80 + c.toNat % 64 - 0x80) = c.toNat by omega,
      Char.ofNat_toNat]

/-! ## Whole texts -/

theorem encodeChar_ne_nil (c : Char) : encodeChar c ≠ [] := by
  unfold encodeChar
  dsimp only
  repeat' split
  all_goals exact List.cons_ne_nil _ _

theorem reads_iff : Reads none bs cs ↔ bs = cs.flatMap encodeChar := by
  constructor
  · intro h
    -- Each character takes at least one byte, so the rest is shorter.
    induction len : bs.length using Nat.strongRecOn generalizing bs cs with
    | ind n ih =>
      cases bs with
      | nil => rw [reads_nil.mp h]; rfl
      | cons b bs =>
        obtain ⟨c, rest, cs', eq, rfl, more⟩ := exists_encodeChar_of_reads h
        have shorter : rest.length < n := by
          have := List.length_pos_iff.mpr (encodeChar_ne_nil c)
          have := congrArg List.length eq
          simp only [List.length_append] at this
          omega
        rw [eq, List.flatMap_cons, ← ih _ shorter more rfl]
  · rintro rfl
    induction cs with
    | nil => exact reads_nil.mpr rfl
    | cons c cs ih => exact reads_encodeChar_append c ih

/-- Bytes are the text of which they are the encoding, and no other bytes are text. -/
theorem decode?_eq_some_iff : decode? bs = some cs ↔ bs = cs.flatMap encodeChar := reads_iff

theorem decode?_encode (text : String) : decode? (encode text) = some text.toList :=
  decode?_eq_some_iff.mpr rfl

end RingRelay.Utf8
