import Mathlib.Data.List.Basic
import Mathlib.Tactic.Lemma
import Mathlib.Tactic.SplitIfs

/-!
# UTF-8 with replacement

Text as bytes and back.  The decoder never fails: it puts one replacement character in place of
each longest run of bytes that starts a character and is not continued as one, which is how
decoders that replace are asked to count.  It is a machine that reads one byte at a time, and
`Pending` is what it knows of a character that is not finished.

Decoding what was encoded gives the text back (`decode_encode`), and no byte gives more than one
character (`length_decode_le`).
-/

namespace Utf8

/-- The character that stands for bytes that are no text. -/
def replacement : Char := Char.ofNat 0xFFFD

/-- The bytes of a character. -/
def encodeChar (c : Char) : List UInt8 :=
  let n := c.toNat
  if n < 0x80 then [.ofNat n]
  else if n < 0x800 then [.ofNat (0xC0 + n / 64), .ofNat (0x80 + n % 64)]
  else if n < 0x10000 then
    [.ofNat (0xE0 + n / 4096), .ofNat (0x80 + n / 64 % 64), .ofNat (0x80 + n % 64)]
  else
    [.ofNat (0xF0 + n / 262144), .ofNat (0x80 + n / 4096 % 64), .ofNat (0x80 + n / 64 % 64),
      .ofNat (0x80 + n % 64)]

/-- The bytes of a text. -/
def encode (text : List Char) : List UInt8 := text.flatMap encodeChar

/-- A character that is not finished: the bounds of its next byte, how many bytes follow that one
and the bits that were read. -/
structure Pending where
  low : Nat
  high : Nat
  owed : Nat
  bits : Nat

/-- The character that a first byte starts, when it starts one of several bytes. -/
def lead (b : Nat) : Option Pending :=
  if 0xC2 ≤ b ∧ b ≤ 0xDF then some ⟨0x80, 0xBF, 0, b - 0xC0⟩
  else if 0xE0 ≤ b ∧ b ≤ 0xEF then
    some ⟨if b = 0xE0 then 0xA0 else 0x80, if b = 0xED then 0x9F else 0xBF, 1, b - 0xE0⟩
  else if 0xF0 ≤ b ∧ b ≤ 0xF4 then
    some ⟨if b = 0xF0 then 0x90 else 0x80, if b = 0xF4 then 0x8F else 0xBF, 2, b - 0xF0⟩
  else none

/-- A byte between characters: what it gives at once, and what it leaves open. -/
def first (b : Nat) : List Char × Option Pending :=
  if b < 0x80 then ([Char.ofNat b], none)
  else match lead b with
    | some pending => ([], some pending)
    | none => ([replacement], none)

/-- A byte, with a character open or not.  One that does not continue the open character ends it
and is read again as a first byte. -/
def step : Option Pending → Nat → List Char × Option Pending
  | none, b => first b
  | some pending, b =>
    if pending.low ≤ b ∧ b ≤ pending.high then
      match pending.owed with
      | 0 => ([Char.ofNat (pending.bits * 64 + (b - 0x80))], none)
      | owed + 1 => ([], some ⟨0x80, 0xBF, owed, pending.bits * 64 + (b - 0x80)⟩)
    else (replacement :: (first b).1, (first b).2)

/-- The rest of a text from a state of the machine. -/
def decodeFrom : Option Pending → List UInt8 → List Char
  | none, [] => []
  | some _, [] => [replacement]
  | pending, b :: rest => (step pending b.toNat).1 ++ decodeFrom (step pending b.toNat).2 rest

/-- The text of bytes. -/
def decode (bytes : List UInt8) : List Char := decodeFrom none bytes

@[simp] lemma encode_nil : encode [] = [] := rfl

@[simp] lemma encode_cons (c : Char) (text : List Char) :
    encode (c :: text) = encodeChar c ++ encode text := rfl

/-! ## Decoding what was encoded -/

lemma decodeFrom_cons (pending : Option Pending) (b : UInt8) (rest : List UInt8) :
    decodeFrom pending (b :: rest) =
      (step pending b.toNat).1 ++ decodeFrom (step pending b.toNat).2 rest := by
  cases pending <;> rfl

lemma toNat_ofNat {n : Nat} (h : n < 256) : (UInt8.ofNat n).toNat = n := by
  rw [UInt8.toNat_ofNat']
  exact Nat.mod_eq_of_lt h

lemma decodeFrom_continue {low high owed bits n : Nat} (hn : n < 256) (hlow : low ≤ n)
    (hhigh : n ≤ high) (rest : List UInt8) :
    decodeFrom (some ⟨low, high, owed + 1, bits⟩) (.ofNat n :: rest) =
      decodeFrom (some ⟨0x80, 0xBF, owed, bits * 64 + (n - 0x80)⟩) rest := by
  rw [decodeFrom_cons, toNat_ofNat hn]
  simp [step, hlow, hhigh]

lemma decodeFrom_finish {low high bits n : Nat} (hn : n < 256) (hlow : low ≤ n) (hhigh : n ≤ high)
    (rest : List UInt8) :
    decodeFrom (some ⟨low, high, 0, bits⟩) (.ofNat n :: rest) =
      Char.ofNat (bits * 64 + (n - 0x80)) :: decodeFrom none rest := by
  rw [decodeFrom_cons, toNat_ofNat hn]
  simp [step, hlow, hhigh]

lemma decodeFrom_lead {n : Nat} {pending : Pending} (hn : n < 256) (hascii : 0x80 ≤ n)
    (hlead : lead n = some pending) (rest : List UInt8) :
    decodeFrom none (.ofNat n :: rest) = decodeFrom (some pending) rest := by
  have hnot : ¬n < 0x80 := by omega
  rw [decodeFrom_cons, toNat_ofNat hn]
  simp [step, first, hnot, hlead]

lemma lead_three {n : Nat} (hlow : 0x800 ≤ n) (hhigh : n < 0x10000) :
    lead (0xE0 + n / 4096) = some
      ⟨if n / 4096 = 0 then 0xA0 else 0x80, if n / 4096 = 0xD then 0x9F else 0xBF, 1, n / 4096⟩ := by
  have h1 : ¬(0xC2 ≤ 0xE0 + n / 4096 ∧ 0xE0 + n / 4096 ≤ 0xDF) := by omega
  have h2 : 0xE0 ≤ 0xE0 + n / 4096 ∧ 0xE0 + n / 4096 ≤ 0xEF := by omega
  have h3 : 0xE0 + n / 4096 = 0xE0 ↔ n / 4096 = 0 := by omega
  have h4 : 0xE0 + n / 4096 = 0xED ↔ n / 4096 = 0xD := by omega
  have h5 : 0xE0 + n / 4096 - 0xE0 = n / 4096 := by omega
  rw [lead, if_neg h1, if_pos h2]
  simp only [h3, h4, h5]

lemma lead_four {n : Nat} (hlow : 0x10000 ≤ n) (hhigh : n < 0x110000) :
    lead (0xF0 + n / 262144) = some
      ⟨if n / 262144 = 0 then 0x90 else 0x80, if n / 262144 = 4 then 0x8F else 0xBF, 2,
        n / 262144⟩ := by
  have h1 : ¬(0xC2 ≤ 0xF0 + n / 262144 ∧ 0xF0 + n / 262144 ≤ 0xDF) := by omega
  have h2 : ¬(0xE0 ≤ 0xF0 + n / 262144 ∧ 0xF0 + n / 262144 ≤ 0xEF) := by omega
  have h3 : 0xF0 ≤ 0xF0 + n / 262144 ∧ 0xF0 + n / 262144 ≤ 0xF4 := by omega
  have h4 : 0xF0 + n / 262144 = 0xF0 ↔ n / 262144 = 0 := by omega
  have h5 : 0xF0 + n / 262144 = 0xF4 ↔ n / 262144 = 4 := by omega
  have h6 : 0xF0 + n / 262144 - 0xF0 = n / 262144 := by omega
  rw [lead, if_neg h1, if_neg h2, if_pos h3]
  simp only [h4, h5, h6]

/-- The bytes of a character are read as that character. -/
lemma decodeFrom_encodeChar (c : Char) (rest : List UInt8) :
    decodeFrom none (encodeChar c ++ rest) = c :: decodeFrom none rest := by
  have hvalid : c.toNat < 0xD800 ∨ 0xDFFF < c.toNat ∧ c.toNat < 0x110000 := c.valid
  have hc : Char.ofNat c.toNat = c := Char.ofNat_toNat c
  generalize hn : c.toNat = n at hvalid hc
  rw [encodeChar, hn]
  by_cases h1 : n < 0x80
  · rw [if_pos h1, List.singleton_append, decodeFrom_cons, toNat_ofNat (by omega)]
    simp [step, first, h1, hc]
  rw [if_neg h1]
  by_cases h2 : n < 0x800
  · have hlead : lead (0xC0 + n / 64) = some ⟨0x80, 0xBF, 0, n / 64⟩ := by
      rw [lead, if_pos (by omega), show 0xC0 + n / 64 - 0xC0 = n / 64 by omega]
    rw [if_pos h2, List.cons_append, decodeFrom_lead (by omega) (by omega) hlead,
      List.singleton_append, decodeFrom_finish (by omega) (by omega) (by omega),
      show n / 64 * 64 + (0x80 + n % 64 - 0x80) = n by omega, hc]
  rw [if_neg h2]
  by_cases h3 : n < 0x10000
  · rw [if_pos h3, List.cons_append, decodeFrom_lead (by omega) (by omega)
      (lead_three (by omega) h3), List.cons_append,
      decodeFrom_continue (by omega) (by split_ifs <;> omega) (by split_ifs <;> omega),
      List.singleton_append, decodeFrom_finish (by omega) (by omega) (by omega),
      show (n / 4096 * 64 + (0x80 + n / 64 % 64 - 0x80)) * 64 + (0x80 + n % 64 - 0x80) = n by omega,
      hc]
  · rw [if_neg h3, List.cons_append, decodeFrom_lead (by omega) (by omega)
      (lead_four (by omega) (by omega)), List.cons_append,
      decodeFrom_continue (by omega) (by split_ifs <;> omega) (by split_ifs <;> omega),
      List.cons_append, decodeFrom_continue (by omega) (by omega) (by omega),
      List.singleton_append, decodeFrom_finish (by omega) (by omega) (by omega),
      show ((n / 262144 * 64 + (0x80 + n / 4096 % 64 - 0x80)) * 64 +
        (0x80 + n / 64 % 64 - 0x80)) * 64 + (0x80 + n % 64 - 0x80) = n by omega, hc]

/-- Decoding what was encoded gives the text back. -/
theorem decode_encode (text : List Char) : decode (encode text) = text := by
  rw [decode]
  induction text with
  | nil => rfl
  | cons c rest ih => rw [encode_cons, decodeFrom_encodeChar, ih]

/-! ## The length of a text -/

lemma length_first_le (b : Nat) : (first b).1.length + (first b).2.toList.length ≤ 1 := by
  unfold first
  split_ifs
  · simp
  · cases lead b <;> simp

/-- A byte gives at most one character or leaves one open; what was open counts for one. -/
lemma length_step_le (pending : Option Pending) (b : Nat) :
    (step pending b).1.length + (step pending b).2.toList.length ≤ 1 + pending.toList.length := by
  cases pending with
  | none =>
    have hfirst := length_first_le b
    simpa [step] using hfirst
  | some pending =>
    rw [step]
    split_ifs
    · cases pending.owed <;> simp
    · have := length_first_le b
      simp only [List.length_cons, Option.toList_some, List.length_nil]
      omega

lemma length_decodeFrom_le (pending : Option Pending) (bytes : List UInt8) :
    (decodeFrom pending bytes).length ≤ bytes.length + pending.toList.length := by
  induction bytes generalizing pending with
  | nil => cases pending <;> simp [decodeFrom]
  | cons b rest ih =>
    have hstep := length_step_le pending b.toNat
    have hrest := ih (step pending b.toNat).2
    rw [decodeFrom_cons, List.length_append, List.length_cons]
    omega

theorem length_decode_le (bytes : List UInt8) : (decode bytes).length ≤ bytes.length := by
  have h := length_decodeFrom_le none bytes
  simpa [decode] using h

end Utf8
