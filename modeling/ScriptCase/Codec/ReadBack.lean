import ScriptCase.Codec.Encoding

/-!
# Writing and reading back

What is written in an encoding is read back as it was, from bytes at hand (`Encoding.decode_encode`) and from a stream
(`Encoding.decodeStream_encode`). Only the encodings of one byte per character cannot write every text
(`Encoding.encode_cases`).
-/

namespace ScriptCase

theorem Char.toNat_bounds (c : Char) : c.toNat < 0xd800 ∨ 0xdfff < c.toNat ∧ c.toNat < 0x110000 := c.valid

/-! ## UTF-8 -/

namespace Utf8

theorem isContinuation_iff {b : UInt8} : isContinuation b = true ↔ 0x80 ≤ b.toNat ∧ b.toNat < 0xc0 := by
  simp [isContinuation, UInt8.lt_iff_toNat_lt, UInt8.le_iff_toNat_le]

theorem mayFollow_iff {a b : UInt8} : mayFollow a b = true ↔
    (0x80 ≤ b.toNat ∧ b.toNat < 0xc0) ∧ (a.toNat ≠ 0xe0 ∨ 0xa0 ≤ b.toNat) ∧ (a.toNat ≠ 0xed ∨ b.toNat < 0xa0) ∧
      (a.toNat ≠ 0xf0 ∨ 0x90 ≤ b.toNat) ∧ (a.toNat ≠ 0xf4 ∨ b.toNat < 0x90) := by
  simp [mayFollow, isContinuation_iff, UInt8.lt_iff_toNat_lt, UInt8.le_iff_toNat_le, ← UInt8.toNat_inj, and_assoc]

theorem toNat_byte {n : Nat} (h : n < 0x100) : (UInt8.ofNat n).toNat = n := UInt8.toNat_ofNat_of_lt' h

/-! One character is read by the number of bytes that its first byte announces. -/

section Steps

variable {b b₁ b₂ b₃ : UInt8} {rest : Bytes}

theorem step_one (h : b.toNat < 0x80) : step b rest = .char (Char.ofNat b.toNat) 1 := by
  rw [step.eq_def, if_pos (UInt8.lt_iff_toNat_lt.mpr h)]

theorem step_two (h : 0xc2 ≤ b.toNat ∧ b.toNat < 0xe0) (h₁ : mayFollow b b₁ = true) :
    step b (b₁ :: rest) = .char (Char.ofNat (b.toNat % 0x20 * 0x40 + payload b₁)) 2 := by
  have hs : ¬b < 0x80 := by simp [UInt8.lt_iff_toNat_lt]; omega
  have hv : ¬(b < 0xc2 ∨ 0xf5 ≤ b) := by simp [UInt8.lt_iff_toNat_lt, UInt8.le_iff_toNat_le]; omega
  have ht : b < 0xe0 := by simp [UInt8.lt_iff_toNat_lt]; omega
  simp [step, hs, hv, h₁, ht]

theorem step_three (h : 0xe0 ≤ b.toNat ∧ b.toNat < 0xf0) (h₁ : mayFollow b b₁ = true)
    (h₂ : isContinuation b₂ = true) : step b (b₁ :: b₂ :: rest) =
      .char (Char.ofNat ((b.toNat % 0x10 * 0x40 + payload b₁) * 0x40 + payload b₂)) 3 := by
  have hs : ¬b < 0x80 := by simp [UInt8.lt_iff_toNat_lt]; omega
  have hv : ¬(b < 0xc2 ∨ 0xf5 ≤ b) := by simp [UInt8.lt_iff_toNat_lt, UInt8.le_iff_toNat_le]; omega
  have ht : ¬b < 0xe0 := by simp [UInt8.lt_iff_toNat_lt]; omega
  have hf : b < 0xf0 := by simp [UInt8.lt_iff_toNat_lt]; omega
  simp [step, hs, hv, h₁, h₂, ht, hf]

theorem step_four (h : 0xf0 ≤ b.toNat ∧ b.toNat < 0xf5) (h₁ : mayFollow b b₁ = true) (h₂ : isContinuation b₂ = true)
    (h₃ : isContinuation b₃ = true) : step b (b₁ :: b₂ :: b₃ :: rest) = .char
      (Char.ofNat (((b.toNat % 0x08 * 0x40 + payload b₁) * 0x40 + payload b₂) * 0x40 + payload b₃)) 4 := by
  have hs : ¬b < 0x80 := by simp [UInt8.lt_iff_toNat_lt]; omega
  have hv : ¬(b < 0xc2 ∨ 0xf5 ≤ b) := by simp [UInt8.lt_iff_toNat_lt, UInt8.le_iff_toNat_le]; omega
  have ht : ¬b < 0xe0 := by simp [UInt8.lt_iff_toNat_lt]; omega
  have hf : ¬b < 0xf0 := by simp [UInt8.lt_iff_toNat_lt]; omega
  simp [step, hs, hv, h₁, h₂, h₃, ht, hf]

end Steps

/-- The bytes behind the first one, by the value of their lower six bits. -/
theorem toNat_tail (n : Nat) : (UInt8.ofNat (0x80 + n % 0x40)).toNat = 0x80 + n % 0x40 := toNat_byte (by omega)

theorem isContinuation_tail (n : Nat) : isContinuation (UInt8.ofNat (0x80 + n % 0x40)) = true := by
  rw [isContinuation_iff, toNat_tail]
  omega

theorem payload_tail (n : Nat) : payload (UInt8.ofNat (0x80 + n % 0x40)) = n % 0x40 := by
  rw [payload, toNat_tail]
  omega

/-- The bytes of a character are read as that character. -/
theorem step_encodeChar (c : Char) (rest : Bytes) :
    ∃ b bs, encodeChar c = b :: bs ∧ step b (bs ++ rest) = .char c (bs.length + 1) := by
  have hbounds := Char.toNat_bounds c
  have hc : ∀ {n}, n = c.toNat → Char.ofNat n = c := fun hn => by rw [hn, Char.ofNat_toNat]
  simp only [encodeChar, Nat.div_one]
  split
  · next h =>
    have hb := toNat_byte (n := c.toNat) (by omega)
    exact ⟨_, _, rfl, by rw [step_one (by omega), hc hb]; rfl⟩
  split
  · next h =>
    have hb := toNat_byte (n := 0xc0 + c.toNat / 0x40) (by omega)
    refine ⟨_, _, rfl, ?_⟩
    rw [List.singleton_append, step_two (by omega) (by rw [mayFollow_iff, hb, toNat_tail]; omega), payload_tail, hb,
      hc (by omega)]
    rfl
  split
  · next h =>
    have hb := toNat_byte (n := 0xe0 + c.toNat / 0x1000) (by omega)
    refine ⟨_, _, rfl, ?_⟩
    rw [List.cons_append, List.singleton_append,
      step_three (by omega) (by rw [mayFollow_iff, hb, toNat_tail]; omega) (isContinuation_tail _), payload_tail,
      payload_tail, hb, hc (by omega)]
    rfl
  · have hb := toNat_byte (n := 0xf0 + c.toNat / 0x40000) (by omega)
    refine ⟨_, _, rfl, ?_⟩
    rw [List.cons_append, List.cons_append, List.singleton_append,
      step_four (by omega) (by rw [mayFollow_iff, hb, toNat_tail]; omega) (isContinuation_tail _)
        (isContinuation_tail _), payload_tail, payload_tail, payload_tail, hb, hc (by omega)]
    rfl

theorem decodeFrom_encode (t : Text) (fuel position : Nat) (done : Text) (hf : (encode t).length ≤ fuel) :
    decodeFrom fuel position done (encode t) = .ok (done.reverse ++ t) := by
  induction t generalizing fuel position done with
  | nil => cases fuel <;> simp [encode, decodeFrom]
  | cons c t ih =>
    obtain ⟨b, bs, hc, hstep⟩ := step_encodeChar c (encode t)
    have henc : encode (c :: t) = b :: (bs ++ encode t) := by rw [encode, List.flatMap_cons, hc]; rfl
    rw [henc] at hf ⊢
    cases fuel with
    | zero => cases hf
    | succ fuel =>
      rw [decodeFrom, hstep]
      dsimp only
      rw [Nat.add_sub_cancel, List.drop_left, ih fuel _ (c :: done) (by simp at hf; omega)]
      simp

theorem decode_encode (t : Text) : decode (encode t) = .ok t := decodeFrom_encode t _ 0 [] (Nat.le_refl _)

end Utf8

/-! ## UTF-16 -/

namespace Utf16

theorem unit_bytes (o : Order) {u : Nat} (h : u < 0x10000) : ∃ a b, o.bytes u = [a, b] ∧ o.unit a b = u := by
  have hh := Utf8.toNat_byte (n := u / 0x100) (by omega)
  have hl := Utf8.toNat_byte (n := u % 0x100) (by omega)
  cases o <;> exact ⟨_, _, rfl, by simp only [Order.unit, hh, hl]; omega⟩

/-- The units of a character are read as that character. -/
theorem decodeFrom_append (o : Order) (c : Char) (rest : Bytes) (position : Nat) (done : Text) :
    ∃ position', decodeFrom o position done ((unitsOf c).flatMap o.bytes ++ rest) =
      decodeFrom o position' (c :: done) rest := by
  have hbounds := Char.toNat_bounds c
  have hc : ∀ {n}, n = c.toNat → Char.ofNat n = c := fun hn => by rw [hn, Char.ofNat_toNat]
  rw [unitsOf]
  split
  · next h =>
    obtain ⟨a, b, hbytes, hu⟩ := unit_bytes o h
    have hlow : isLow c.toNat = false := by simp [isLow]; omega
    have hhigh : isHigh c.toNat = false := by simp [isHigh]; omega
    refine ⟨position + 2, ?_⟩
    rw [List.flatMap_singleton, hbytes, List.cons_append, List.singleton_append, decodeFrom.eq_def]
    simp [hu, hlow, hhigh]
  · next h =>
    obtain ⟨a, b, hbytes, hu⟩ := unit_bytes o (u := 0xd800 + (c.toNat - 0x10000) / 0x400) (by omega)
    obtain ⟨a', b', hbytes', hu'⟩ := unit_bytes o (u := 0xdc00 + (c.toNat - 0x10000) % 0x400) (by omega)
    have hlow : isLow (0xd800 + (c.toNat - 0x10000) / 0x400) = false := by simp [isLow]; omega
    have hhigh : isHigh (0xd800 + (c.toNat - 0x10000) / 0x400) = true := by simp [isHigh]; omega
    have hlow' : isLow (0xdc00 + (c.toNat - 0x10000) % 0x400) = true := by simp [isLow]; omega
    have hpair : pair (0xd800 + (c.toNat - 0x10000) / 0x400) (0xdc00 + (c.toNat - 0x10000) % 0x400) = c :=
      hc (by omega)
    refine ⟨position + 4, ?_⟩
    simp [hbytes, hbytes', decodeFrom, hu, hu', hlow, hhigh, hlow', hpair]

theorem decodeFrom_encode (o : Order) (t : Text) (position : Nat) (done : Text) :
    decodeFrom o position done (encode o t) = .ok (done.reverse ++ t) := by
  induction t generalizing position done with
  | nil => simp [encode, decodeFrom]
  | cons c t ih =>
    have henc : encode o (c :: t) = (unitsOf c).flatMap o.bytes ++ encode o t := by simp [encode]
    obtain ⟨position', h⟩ := decodeFrom_append o c (encode o t) position done
    rw [henc, h, ih]
    simp

end Utf16
/-! ## All encodings -/

namespace Encoding

theorem decodeBelow_eq_ok_iff {bound : Nat} {name : String} {bs : Bytes} {t : Text} :
    decodeBelow bound name bs = .ok t ↔ (∀ b ∈ bs, b.toNat < bound) ∧ t = bs.map fun b => Char.ofNat b.toNat := by
  rw [decodeBelow]
  split
  · next b i h =>
    refine iff_of_false (by simp) ?_
    have hb := List.find?_some h
    have hm := List.fst_mem_of_mem_zipIdx (List.mem_of_find?_eq_some h)
    exact fun ht => absurd (ht.1 b hm) (by simpa using hb)
  · next h =>
    have hall : ∀ b ∈ bs, b.toNat < bound := by
      intro b hb
      obtain ⟨i, hi⟩ := List.mem_iff_getElem?.mp hb
      rw [List.find?_eq_none] at h
      simpa using h (b, i) (List.mk_mem_zipIdx_iff_getElem?.mpr hi)
    simp only [Except.ok.injEq]
    exact ⟨fun ht => ⟨hall, ht.symm⟩, fun ht => ht.2.symm⟩

theorem takeWhile_lt_eq_self_iff {bound : Nat} {t : Text} :
    (t.takeWhile fun c => decide (c.toNat < bound)) = t ↔ ∀ c ∈ t, c.toNat < bound := by
  induction t with
  | nil => simp
  | cons c t ih => by_cases hc : c.toNat < bound <;> simp [hc, ih]

theorem encodeBelow_of_lt {bound : Nat} {name : String} {t : Text} (h : ∀ c ∈ t, c.toNat < bound) :
    encodeBelow bound name t = .ok (t.map fun c => UInt8.ofNat c.toNat) := by
  rw [encodeBelow, takeWhile_lt_eq_self_iff.mpr h]
  simp

theorem exists_le_of_encodeBelow_error {bound : Nat} {name : String} {t : Text} {f : EncodeFault}
    (h : encodeBelow bound name t = .error f) : ∃ c ∈ t, bound ≤ c.toNat := by
  refine Classical.byContradiction fun hn => ?_
  rw [encodeBelow_of_lt fun c hc => Nat.lt_of_not_le fun hle => hn ⟨c, hc, hle⟩] at h
  cases h

theorem lt_of_encodeBelow_ok {bound : Nat} {name : String} {t : Text} {bs : Bytes}
    (h : encodeBelow bound name t = .ok bs) : ∀ c ∈ t, c.toNat < bound := by
  rw [encodeBelow] at h
  split at h
  · next hd =>
    have hp : (t.takeWhile fun c => decide (c.toNat < bound)) <+: t := List.takeWhile_prefix _
    have hlen := hp.length_le
    exact takeWhile_lt_eq_self_iff.mp (hp.eq_of_length (Nat.le_antisymm hlen (List.drop_eq_nil_iff.mp hd)))
  · cases h

theorem decodeBelow_encodeBelow {bound : Nat} {name : String} {t : Text} {bs : Bytes} (hb : bound ≤ 0x100)
    (h : encodeBelow bound name t = .ok bs) : decodeBelow bound name bs = .ok t := by
  have hlt := lt_of_encodeBelow_ok h
  rw [encodeBelow_of_lt hlt, Except.ok.injEq] at h
  subst h
  have hbyte : ∀ c ∈ t, (UInt8.ofNat c.toNat).toNat = c.toNat := fun c hc =>
    Utf8.toNat_byte (by have := hlt c hc; omega)
  rw [decodeBelow_eq_ok_iff]
  constructor
  · intro b hm
    obtain ⟨c, hc, rfl⟩ := List.mem_map.mp hm
    rw [hbyte c hc]
    exact hlt c hc
  · rw [List.map_map]
    refine (List.map_id t).symm.trans (List.map_congr_left fun c hc => ?_)
    simp only [Function.comp_apply, hbyte c hc, Char.ofNat_toNat, id_eq]

/-- What is written is read back from the bytes at hand. -/
theorem decode_encode {e : Encoding} {t : Text} {bs : Bytes} (h : e.encode t = .ok bs) : e.decode bs = .ok t := by
  cases e with
  | utf8 =>
    obtain rfl := Except.ok.inj h
    exact Utf8.decode_encode t
  | utf8Marked =>
    obtain rfl := Except.ok.inj h
    rw [decode, if_pos (by simp), List.drop_left, Utf8.decode_encode]
  | latin1 => exact decodeBelow_encodeBelow (by decide) h
  | ascii => exact decodeBelow_encodeBelow (by decide) h
  | utf16 =>
    obtain rfl := Except.ok.inj h
    exact Utf16.decodeFrom_encode .little t 2 []
  | utf16Little =>
    obtain rfl := Except.ok.inj h
    exact Utf16.decodeFrom_encode .little t 0 []
  | utf16Big =>
    obtain rfl := Except.ok.inj h
    exact Utf16.decodeFrom_encode .big t 0 []

/-- What is written is read back from a stream: its mark is neither cut short nor missing. -/
theorem decodeStream_encode {e : Encoding} {t : Text} {bs : Bytes} (h : e.encode t = .ok bs) :
    e.decodeStream bs = .ok t := by
  have hd := decode_encode h
  cases e with
  | utf8Marked =>
    obtain rfl := Except.ok.inj h
    have hlen : ¬(Utf8.mark ++ Utf8.encode t).length < Utf8.mark.length := by simp
    rw [decodeStream, if_neg (fun h => hlen (by simpa using (Bool.and_eq_true_iff.mp h).1)), hd]
    rfl
  | utf16 =>
    obtain rfl := Except.ok.inj h
    rw [decodeStream, hd]
    rfl
  | _ => exact congrArg (Except.mapError CodecFault.undecodable) hd

end Encoding
end ScriptCase
