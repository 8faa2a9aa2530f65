/-
Decoding undoes encoding. A character is written as a byte that says how
many follow, and then these, six bits in each. The decoder, standing
between characters, is led by the first byte into the state that the
others fit, and with the last of them it stands between characters again
with the character put together (`decode_char`).

The ranges that the decoder insists on keep nothing out that an encoder
writes: what is written in three bytes is at least U+0800 and is no
surrogate, and what is written in four lies between U+10000 and U+10FFFF.
-/
import QueryLint.Text.Utf8

namespace QueryLint.Utf8

theorem decodeFrom_cons (s : State) (b : UInt8) (bytes : List UInt8) :
    decodeFrom s (b :: bytes) = (feed s b).1 ++ decodeFrom (feed s b).2 bytes := rfl

theorem toNat_byte {n : Nat} (h : n < 256) : (UInt8.ofNat n).toNat = n :=
  UInt8.toNat_ofNat_of_lt' h

-- ============================================================== first bytes

theorem lead_one {v : Nat} (h : v < 0x80) :
    lead (UInt8.ofNat v) = ([Char.ofNat v], .start) := by
  unfold lead
  rw [toNat_byte (by omega), if_pos h]

/-- The first of two bytes; those from below two would be overlong. -/
theorem lead_two {h : Nat} (hlo : 2 ≤ h) (hhi : h < 0x20) :
    lead (UInt8.ofNat (h + 0xC0)) = ([], .inside 0 0x80 0xBF h) := by
  have hv : (UInt8.ofNat (h + 0xC0)).toNat = h + 0xC0 := toNat_byte (by omega)
  unfold lead
  simp only [hv]
  rw [if_neg (by omega), if_neg (by omega), if_pos (by omega), Nat.add_sub_cancel]

theorem lead_three {h : Nat} (hhi : h < 0x10) :
    lead (UInt8.ofNat (h + 0xE0))
      = ([], .inside 1 (if h = 0 then 0xA0 else 0x80) (if h = 0xD then 0x9F else 0xBF) h) := by
  have hv : (UInt8.ofNat (h + 0xE0)).toNat = h + 0xE0 := toNat_byte (by omega)
  unfold lead
  simp only [hv]
  rw [if_neg (by omega), if_neg (by omega), if_neg (by omega), if_pos (by omega),
    Nat.add_sub_cancel]
  simp only [show h + 0xE0 = 0xE0 ↔ h = 0 by omega, show h + 0xE0 = 0xED ↔ h = 0xD by omega]

theorem lead_four {h : Nat} (hhi : h < 5) :
    lead (UInt8.ofNat (h + 0xF0))
      = ([], .inside 2 (if h = 0 then 0x90 else 0x80) (if h = 4 then 0x8F else 0xBF) h) := by
  have hv : (UInt8.ofNat (h + 0xF0)).toNat = h + 0xF0 := toNat_byte (by omega)
  unfold lead
  simp only [hv]
  rw [if_neg (by omega), if_neg (by omega), if_neg (by omega), if_neg (by omega),
    if_pos (by omega), Nat.add_sub_cancel]
  simp only [show h + 0xF0 = 0xF0 ↔ h = 0 by omega, show h + 0xF0 = 0xF4 ↔ h = 4 by omega]

-- ============================================================== other bytes

theorem toNat_tail {t : Nat} (ht : t < 0x40) : (UInt8.ofNat (t + 0x80)).toNat = t + 0x80 :=
  toNat_byte (by omega)

/-- A byte that carries six bits, in range. -/
theorem tail_inRange {t : Nat} {lo hi : UInt8} (ht : t < 0x40) (hlo : lo.toNat ≤ t + 0x80)
    (hhi : t + 0x80 ≤ hi.toNat) :
    lo ≤ UInt8.ofNat (t + 0x80) ∧ UInt8.ofNat (t + 0x80) ≤ hi := by
  rw [UInt8.le_iff_toNat_le, UInt8.le_iff_toNat_le, toNat_tail ht]
  exact ⟨hlo, hhi⟩

/-- Where there is no narrower range, all six bits are free. -/
theorem free_range {t : Nat} (ht : t < 0x40) :
    (0x80 : UInt8).toNat ≤ t + 0x80 ∧ t + 0x80 ≤ (0xBF : UInt8).toNat := by
  show 0x80 ≤ t + 0x80 ∧ t + 0x80 ≤ 0xBF
  omega

/-- A byte in range that others follow. -/
theorem feed_inside {t more value : Nat} {lo hi : UInt8} (ht : t < 0x40)
    (hlo : lo.toNat ≤ t + 0x80) (hhi : t + 0x80 ≤ hi.toNat) :
    feed (.inside (more + 1) lo hi value) (UInt8.ofNat (t + 0x80))
      = ([], .inside more 0x80 0xBF (value * 64 + t)) := by
  unfold feed
  simp only [if_pos (tail_inRange ht hlo hhi), toNat_tail ht, Nat.add_sub_cancel]

/-- The last byte of a character. -/
theorem feed_last {t value : Nat} {lo hi : UInt8} (ht : t < 0x40)
    (hlo : lo.toNat ≤ t + 0x80) (hhi : t + 0x80 ≤ hi.toNat) :
    feed (.inside 0 lo hi value) (UInt8.ofNat (t + 0x80))
      = ([Char.ofNat (value * 64 + t)], .start) := by
  unfold feed
  simp only [if_pos (tail_inRange ht hlo hhi), toNat_tail ht, Nat.add_sub_cancel]

-- =============================================================== characters

theorem decode_two {v : Nat} (hlo : 0x80 ≤ v) (hhi : v < 0x800) (rest : List UInt8) :
    decode (UInt8.ofNat (v / 64 % 0x20 + 0xC0) :: UInt8.ofNat (v % 0x40 + 0x80) :: rest)
      = Char.ofNat v :: decode rest := by
  have hv : v / 64 % 0x20 * 64 + v % 0x40 = v := by omega
  have hlow : v % 0x40 < 0x40 := Nat.mod_lt v (by decide)
  unfold decode
  rw [decodeFrom_cons, feed, lead_two (by omega) (by omega), decodeFrom_cons,
    feed_last hlow (free_range hlow).1 (free_range hlow).2, hv]
  rfl

theorem decode_three {v : Nat} (hlo : 0x800 ≤ v) (hhi : v < 0x10000)
    (hscalar : v < 0xD800 ∨ 0xDFFF < v) (rest : List UInt8) :
    decode (UInt8.ofNat (v / 4096 % 0x10 + 0xE0) :: UInt8.ofNat (v / 64 % 0x40 + 0x80)
        :: UInt8.ofNat (v % 0x40 + 0x80) :: rest)
      = Char.ofNat v :: decode rest := by
  have hv : (v / 4096 % 0x10 * 64 + v / 64 % 0x40) * 64 + v % 0x40 = v := by omega
  have hfirst : (if v / 4096 % 0x10 = 0 then 0xA0 else 0x80 : UInt8).toNat
      ≤ v / 64 % 0x40 + 0x80 := by
    split
    · show 0xA0 ≤ _
      omega
    · show 0x80 ≤ _
      omega
  have hlast : v / 64 % 0x40 + 0x80
      ≤ (if v / 4096 % 0x10 = 0xD then 0x9F else 0xBF : UInt8).toNat := by
    split
    · show _ ≤ 0x9F
      omega
    · show _ ≤ 0xBF
      omega
  have hlow : v % 0x40 < 0x40 := Nat.mod_lt v (by decide)
  unfold decode
  rw [decodeFrom_cons, feed, lead_three (by omega), decodeFrom_cons,
    feed_inside (by omega) hfirst hlast, decodeFrom_cons,
    feed_last hlow (free_range hlow).1 (free_range hlow).2, hv]
  rfl

theorem decode_four {v : Nat} (hlo : 0x10000 ≤ v) (hhi : v < 0x110000) (rest : List UInt8) :
    decode (UInt8.ofNat (v / 262144 % 0x08 + 0xF0) :: UInt8.ofNat (v / 4096 % 0x40 + 0x80)
        :: UInt8.ofNat (v / 64 % 0x40 + 0x80) :: UInt8.ofNat (v % 0x40 + 0x80) :: rest)
      = Char.ofNat v :: decode rest := by
  have hv : ((v / 262144 % 0x08 * 64 + v / 4096 % 0x40) * 64 + v / 64 % 0x40) * 64 + v % 0x40
      = v := by omega
  have hfirst : (if v / 262144 % 0x08 = 0 then 0x90 else 0x80 : UInt8).toNat
      ≤ v / 4096 % 0x40 + 0x80 := by
    split
    · show 0x90 ≤ _
      omega
    · show 0x80 ≤ _
      omega
  have hlast : v / 4096 % 0x40 + 0x80
      ≤ (if v / 262144 % 0x08 = 4 then 0x8F else 0xBF : UInt8).toNat := by
    split
    · show _ ≤ 0x8F
      omega
    · show _ ≤ 0xBF
      omega
  have hmiddle : v / 64 % 0x40 < 0x40 := Nat.mod_lt _ (by decide)
  have hlow : v % 0x40 < 0x40 := Nat.mod_lt v (by decide)
  unfold decode
  rw [decodeFrom_cons, feed, lead_four (by omega), decodeFrom_cons,
    feed_inside (by omega) hfirst hlast, decodeFrom_cons,
    feed_inside hmiddle (free_range hmiddle).1 (free_range hmiddle).2, decodeFrom_cons,
    feed_last hlow (free_range hlow).1 (free_range hlow).2, hv]
  rfl

/-- A character is read from its bytes, whatever is behind them. -/
theorem decode_char (c : Char) (rest : List UInt8) :
    decode (String.utf8EncodeChar c ++ rest) = c :: decode rest := by
  have hscalar : c.val.toNat < 0xD800 ∨ (0xDFFF < c.val.toNat ∧ c.val.toNat < 0x110000) :=
    c.valid
  have hc : Char.ofNat c.val.toNat = c := Char.ofNat_toNat c
  fun_cases String.utf8EncodeChar c with
  | case1 v h1 =>
    show decode (UInt8.ofNat c.val.toNat :: rest) = _
    unfold decode
    rw [decodeFrom_cons, feed, lead_one (Nat.lt_succ_of_le h1), hc]
    rfl
  | case2 v h1 h2 =>
    exact (decode_two (Nat.lt_of_not_le h1) (Nat.lt_succ_of_le h2) rest).trans (by rw [hc])
  | case3 v h1 h2 h3 =>
    exact (decode_three (Nat.lt_of_not_le h2) (Nat.lt_succ_of_le h3) (by omega) rest).trans
      (by rw [hc])
  | case4 v h1 h2 h3 =>
    exact (decode_four (Nat.lt_of_not_le h3) (by omega) rest).trans (by rw [hc])

theorem decode_append (cs : List Char) (rest : List UInt8) :
    decode (encode cs ++ rest) = cs ++ decode rest := by
  induction cs with
  | nil => rfl
  | cons c cs ih =>
    show decode ((String.utf8EncodeChar c ++ encode cs) ++ rest) = _
    rw [List.append_assoc, decode_char, ih, List.cons_append]

theorem decode_encode (cs : List Char) : decode (encode cs) = cs := by
  have happend := decode_append cs []
  rwa [List.append_nil, show decode [] = [] from rfl, List.append_nil] at happend

end QueryLint.Utf8
