import Mathlib.Data.List.SplitBy
import OpencodeSession.Framework.Utf8

/-!
# Percent-encoding of text

`quote` writes every byte of a text that is not an unreserved character as an escape, the slash
included.  `unquote` reads the escapes back, one run of ASCII characters at a time: the bytes of a
run are read as UTF-8 with replacement, and what is outside of the runs stays as it is.

A text that `unquote` changes gets shorter (`unquote_eq_or_shorter`), so unquoting a text again and
again comes to an end before there are as many rounds as characters.
-/

namespace PercentEncoding

/-- The characters that are not escaped. -/
def isUnreserved (c : Char) : Bool :=
  (65 ≤ c.toNat && c.toNat ≤ 90) || (97 ≤ c.toNat && c.toNat ≤ 122) ||
    (48 ≤ c.toNat && c.toNat ≤ 57) || c ∈ ['_', '.', '-', '~']

/-- A number below 16 as a digit. -/
def hexDigit (n : Nat) : Char := Char.ofNat (if n < 10 then 48 + n else 55 + n)

/-- The escape of a byte. -/
def escape (b : UInt8) : List Char := ['%', hexDigit (b.toNat / 16), hexDigit (b.toNat % 16)]

/-- A text with everything escaped but its unreserved characters. -/
def quote (text : List Char) : List Char :=
  text.flatMap fun c => if isUnreserved c then [c] else (Utf8.encodeChar c).flatMap escape

/-- The value of a digit. -/
def hexValue? (c : Char) : Option Nat :=
  if 48 ≤ c.toNat ∧ c.toNat ≤ 57 then some (c.toNat - 48)
  else if 65 ≤ c.toNat ∧ c.toNat ≤ 70 then some (c.toNat - 55)
  else if 97 ≤ c.toNat ∧ c.toNat ≤ 102 then some (c.toNat - 87)
  else none

/-- The byte of an escape, from its three characters. -/
def escaped? (c high low : Char) : Option UInt8 :=
  if c = '%' then do
    let high ← hexValue? high
    let low ← hexValue? low
    return .ofNat (high * 16 + low)
  else none

/-- The bytes of a run of ASCII characters, with its escapes read. -/
def unquoteToBytes : List Char → List UInt8
  | c :: high :: low :: rest =>
    match escaped? c high low with
    | some b => b :: unquoteToBytes rest
    | none => .ofNat c.toNat :: unquoteToBytes (high :: low :: rest)
  | text => text.map fun c => .ofNat c.toNat

/-- Whether a character is an ASCII character. -/
def isAscii (c : Char) : Bool := c.toNat < 128

/-- The text of a run: of an ASCII run with its escapes read, any other run as it is. -/
def unquoteRun (run : List Char) : List Char :=
  if run.all isAscii then Utf8.decode (unquoteToBytes run) else run

/-- A text with its escapes read. -/
def unquote (text : List Char) : List Char :=
  (text.splitBy fun left right => isAscii left = isAscii right).flatMap unquoteRun

/-! ## Texts that are changed get shorter -/

lemma encode_of_ascii {text : List Char} (h : text.all isAscii = true) :
    Utf8.encode text = text.map fun c => .ofNat c.toNat := by
  induction text with
  | nil => rfl
  | cons c rest ih =>
    obtain ⟨hc, hrest⟩ : isAscii c = true ∧ rest.all isAscii = true := by simpa using h
    have hn : c.toNat < 0x80 := of_decide_eq_true hc
    rw [Utf8.encode_cons, ih hrest, List.map_cons, Utf8.encodeChar]
    simp [hn]

/-- The bytes of a text are its characters, or there are fewer of them. -/
lemma unquoteToBytes_eq_or_shorter (text : List Char) :
    unquoteToBytes text = text.map (fun c => .ofNat c.toNat) ∨
      (unquoteToBytes text).length < text.length := by
  induction text using unquoteToBytes.induct with
  | case1 c high low rest b hescaped ih =>
    have hle : (unquoteToBytes rest).length ≤ rest.length := by
      rcases ih with h | h
      · simp [h]
      · omega
    rw [unquoteToBytes, hescaped]
    right
    simp only [List.length_cons]
    omega
  | case2 c high low rest hescaped ih =>
    rw [unquoteToBytes, hescaped]
    rcases ih with h | h
    · left
      simp [h]
    · right
      simpa using h
  | case3 text hshort =>
    left
    rw [unquoteToBytes]
    exact hshort

lemma unquoteRun_eq_or_shorter (run : List Char) :
    unquoteRun run = run ∨ (unquoteRun run).length < run.length := by
  unfold unquoteRun
  split_ifs with hascii
  · rcases unquoteToBytes_eq_or_shorter run with h | h
    · left
      rw [h, ← encode_of_ascii hascii, Utf8.decode_encode]
    · exact .inr ((Utf8.length_decode_le _).trans_lt h)
  · exact .inl rfl

/-- A text that is changed by reading its escapes gets shorter. -/
theorem unquote_eq_or_shorter (text : List Char) :
    unquote text = text ∨ (unquote text).length < text.length := by
  have hruns : ∀ runs : List (List Char), runs.flatMap unquoteRun = runs.flatten ∨
      (runs.flatMap unquoteRun).length < runs.flatten.length := by
    intro runs
    induction runs with
    | nil => exact .inl rfl
    | cons run runs ih =>
      rw [List.flatMap_cons, List.flatten_cons, List.length_append, List.length_append]
      rcases unquoteRun_eq_or_shorter run with hrun | hrun
      · rcases ih with h | h
        · exact .inl (by rw [hrun, h])
        · right
          rw [hrun]
          omega
      · right
        rcases ih with h | h
        · rw [h]
          omega
        · omega
  have h := hruns (text.splitBy fun left right => isAscii left = isAscii right)
  rw [List.flatten_splitBy] at h
  exact h

/-! ## The characters of a quoted text -/

lemma isUnreserved_hexDigit : ∀ n < 16, isUnreserved (hexDigit n) = true := by
  decide

/-- A quoted text has only unreserved characters and the sign of an escape. -/
lemma isUnreserved_of_mem_quote {text : List Char} {c : Char} (h : c ∈ quote text) :
    isUnreserved c = true ∨ c = '%' := by
  obtain ⟨d, -, hd⟩ := List.mem_flatMap.1 h
  split_ifs at hd with hunreserved
  · obtain rfl : c = d := by simpa using hd
    exact .inl hunreserved
  · obtain ⟨b, -, hb⟩ := List.mem_flatMap.1 hd
    have hb256 : b.toNat < 256 := b.toNat_lt
    have hcases : c = '%' ∨ c = hexDigit (b.toNat / 16) ∨ c = hexDigit (b.toNat % 16) := by
      simpa [escape] using hb
    rcases hcases with rfl | rfl | rfl
    · exact .inr rfl
    · exact .inl (isUnreserved_hexDigit _ (by omega))
    · exact .inl (isUnreserved_hexDigit _ (by omega))

lemma encodeChar_ne_nil (c : Char) : Utf8.encodeChar c ≠ [] := by
  unfold Utf8.encodeChar
  simp only
  split_ifs <;> simp

/-- Only the empty text is quoted as the empty text. -/
lemma quote_ne_nil {text : List Char} (h : text ≠ []) : quote text ≠ [] := by
  obtain ⟨c, rest, rfl⟩ := List.exists_cons_of_ne_nil h
  rw [quote, List.flatMap_cons]
  refine List.append_ne_nil_of_left_ne_nil ?_ _
  split_ifs
  · simp
  · intro hnil
    have hbytes := List.flatMap_eq_nil_iff.1 hnil
    obtain ⟨b, more, hb⟩ := List.exists_cons_of_ne_nil (encodeChar_ne_nil c)
    exact absurd (hbytes b (by rw [hb]; exact List.mem_cons_self)) (by simp [escape])

lemma quote_of_unreserved {text : List Char} (h : ∀ c ∈ text, isUnreserved c = true) :
    quote text = text := by
  induction text with
  | nil => rfl
  | cons c rest ih =>
    have hrest := ih fun d hd => h d (List.mem_cons_of_mem c hd)
    rw [quote, List.flatMap_cons, if_pos (h c List.mem_cons_self)]
    exact congrArg (c :: ·) hrest

lemma unreserved_of_quote {text : List Char} (h : '%' ∉ quote text) :
    ∀ c ∈ text, isUnreserved c = true := by
  intro c hc
  by_contra hreserved
  obtain ⟨b, more, hb⟩ := List.exists_cons_of_ne_nil (encodeChar_ne_nil c)
  refine h (List.mem_flatMap.2 ⟨c, hc, ?_⟩)
  rw [if_neg hreserved, hb]
  simp [escape]

theorem quote_eq_iff {text plain : List Char} (h : ∀ c ∈ plain, isUnreserved c = true) :
    quote text = plain ↔ text = plain := by
  constructor
  · intro hquote
    have hnot : '%' ∉ quote text := by
      rw [hquote]
      exact fun hmem => absurd (h _ hmem) (by decide)
    rw [← hquote, quote_of_unreserved (unreserved_of_quote hnot)]
  · rintro rfl
    exact quote_of_unreserved h

end PercentEncoding
