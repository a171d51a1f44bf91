import Std.Data.String.ToNat
import OpencodeSession.Session.Watch

/-!
# The text on a printed line

The line that a watch prints of a piece of text ends with the number of its characters and the
text, which stands in quotes when it has a space.  `CarriesText` says that a text can be read back
from such an end, without naming the functions that print it: a text in quotes is taken apart into
UTF-16 units and put together again.  What stands in front of the number being known, a line carries
one text only (`CarriesText.unique`), and on the line printed of an event it is the text of the
event (`shownBy_formatWatchEvent`).
-/

namespace OpencodeSession

/-! ## Texts in quotes -/

/-- The UTF-16 units of a character. -/
def utf16 (c : Char) : List Nat :=
  if c.toNat < 65536 then [c.toNat]
  else [55296 + (c.toNat - 65536) / 1024, 56320 + (c.toNat - 65536) % 1024]

/-- The characters of some UTF-16 units. -/
def ofUtf16 : List Nat → List Char
  | high :: low :: rest =>
    if 55296 ≤ high ∧ high < 56320 ∧ 56320 ≤ low ∧ low < 57344 then
      Char.ofNat (65536 + (high - 55296) * 1024 + (low - 56320)) :: ofUtf16 rest
    else Char.ofNat high :: ofUtf16 (low :: rest)
  | [unit] => [Char.ofNat unit]
  | [] => []

/-- What a lower-case hexadecimal digit stands for. -/
def hexValue (c : Char) : Nat := if c.toNat < 65 then c.toNat - 48 else c.toNat - 87

/-- The unit that a letter after a backslash stands for. -/
def escapedUnit (c : Char) : Nat :=
  if c = 'n' then 10 else if c = 'r' then 13 else if c = 't' then 9
  else if c = 'b' then 8 else if c = 'f' then 12 else c.toNat

/-- The UTF-16 units of what stands between the quotes. -/
def quotedUnits : List Char → List Nat
  | '\\' :: 'u' :: a :: b :: c :: d :: rest =>
    (hexValue a * 4096 + hexValue b * 256 + hexValue c * 16 + hexValue d) :: quotedUnits rest
  | '\\' :: c :: rest => escapedUnit c :: quotedUnits rest
  | c :: rest => c.toNat :: quotedUnits rest
  | [] => []

/-- A text in quotes, read. -/
def readQuoted (value : String) : String :=
  String.ofList (ofUtf16 (quotedUnits (value.toList.drop 1).dropLast))

lemma hexValue_hexDigit {n : Nat} (h : n < 16) : hexValue (hexDigit n) = n := by
  have hall : ∀ n < 16, hexValue (hexDigit n) = n := by decide
  exact hall n h

lemma quotedUnits_unicodeEscape {n : Nat} (h : n < 65536) (rest : List Char) :
    quotedUnits (unicodeEscape n ++ rest) = n :: quotedUnits rest := by
  have hunit : n / 4096 * 4096 + n / 256 % 16 * 256 + n / 16 % 16 * 16 + n % 16 = n := by omega
  simp only [unicodeEscape, List.cons_append, List.nil_append, quotedUnits]
  rw [hexValue_hexDigit (by omega), hexValue_hexDigit (by omega), hexValue_hexDigit (by omega),
    hexValue_hexDigit (by omega), hunit]

/-- A character is no surrogate. -/
lemma toNat_valid (c : Char) : c.toNat < 55296 ∨ 57343 < c.toNat ∧ c.toNat < 1114112 := c.valid

/-- The form of a character between the quotes has the units of the character. -/
lemma quotedUnits_escapeChar (c : Char) (rest : List Char) :
    quotedUnits (escapeChar c ++ rest) = utf16 c ++ quotedUnits rest := by
  unfold escapeChar
  split_ifs with h1 h2 h3 h4 h5 h6 h7 h8 h9
  -- the characters that have a form of their own
  · subst h1; rfl
  · subst h2; rfl
  · subst h3; rfl
  · subst h4; rfl
  · subst h5; rfl
  · have hunits : utf16 c = [8] := by simp [utf16, h6]
    rw [hunits]
    rfl
  · have hunits : utf16 c = [12] := by simp [utf16, h7]
    rw [hunits]
    rfl
  -- a character that stands for itself
  · have hunits : utf16 c = [c.toNat] := by
      have hlt : c.toNat < 65536 := by omega
      simp [utf16, hlt]
    rw [hunits, List.singleton_append]
    simp [quotedUnits, h2]
  -- one unit in hexadecimal digits, and two of them
  · rw [quotedUnits_unicodeEscape h9, utf16, if_pos h9]
    rfl
  · have hvalid := toNat_valid c
    rw [List.append_assoc, quotedUnits_unicodeEscape (by omega),
      quotedUnits_unicodeEscape (by omega), utf16, if_neg h9]
    rfl

/-- The units of a character are read as that character. -/
lemma ofUtf16_utf16 (c : Char) (rest : List Nat) :
    ofUtf16 (utf16 c ++ rest) = c :: ofUtf16 rest := by
  have hvalid := toNat_valid c
  by_cases hone : c.toNat < 65536
  · rw [utf16, if_pos hone, List.singleton_append]
    cases rest with
    | nil => simp [ofUtf16]
    | cons low rest =>
      have hnot : ¬(55296 ≤ c.toNat ∧ c.toNat < 56320 ∧ 56320 ≤ low ∧ low < 57344) := by omega
      rw [ofUtf16, if_neg hnot, Char.ofNat_toNat]
  · have hboth : 65536 + (55296 + (c.toNat - 65536) / 1024 - 55296) * 1024 +
        (56320 + (c.toNat - 65536) % 1024 - 56320) = c.toNat := by omega
    rw [utf16, if_neg hone, List.cons_append, List.singleton_append, ofUtf16,
      if_pos (by omega), hboth, Char.ofNat_toNat]

lemma readQuoted_dumpsText (text : String) : readQuoted (dumpsText text) = text := by
  have hunits : ∀ chars : List Char,
      ofUtf16 (quotedUnits (chars.flatMap escapeChar)) = chars := by
    intro chars
    induction chars with
    | nil => rfl
    | cons c chars ih => rw [List.flatMap_cons, quotedUnits_escapeChar, ofUtf16_utf16, ih]
  rw [readQuoted, dumpsText, String.toList_ofList, List.drop_one, List.tail_cons,
    List.dropLast_concat, hunits, String.ofList_toList]

/-- Quotes make a text longer. -/
lemma length_lt_length_dumpsText (text : String) : text.length < (dumpsText text).length := by
  have hchars : ∀ chars : List Char, chars.length ≤ (chars.flatMap escapeChar).length := by
    intro chars
    induction chars with
    | nil => simp
    | cons c chars ih =>
      have hone : 0 < (escapeChar c).length := by
        unfold escapeChar
        split_ifs <;> simp [unicodeEscape]
      rw [List.flatMap_cons, List.length_append, List.length_cons]
      omega
  have hlength := hchars text.toList
  rw [String.length_toList] at hlength
  simp only [dumpsText, String.length_ofList, List.length_cons, List.length_append,
    List.length_nil]
  omega

/-! ## The end of a line -/

/-- The text that a line gives by the number of its characters and a value. -/
def shownText (count : Nat) : Option String → String
  | none => ""
  | some value =>
    if count = 0 then "" else if value.length = count then value else readQuoted value

lemma shownText_compactValue (text : String) :
    shownText text.length (some (compactValue text)) = text := by
  by_cases hempty : text = ""
  · subst hempty; rfl
  · have hlength : text.length ≠ 0 := by simpa using hempty
    by_cases hspace : text.toList.any isPySpace
    · have hlonger : (dumpsText text).length ≠ text.length :=
        Nat.ne_of_gt (length_lt_length_dumpsText text)
      rw [compactValue, if_neg hempty, if_pos hspace, shownText, if_neg hlength, if_neg hlonger,
        readQuoted_dumpsText]
    · rw [compactValue, if_neg hempty, if_neg hspace, shownText, if_neg hlength, if_pos rfl]

/-- The field of a line with a name, if there is a value for it. -/
def lineField (name : String) (value : Option String) : String :=
  value.elim "" fun value => " " ++ name ++ "=" ++ value

/-- A line carries a text after its heading: the number of its characters follows, and then a value
from which it can be read. -/
def CarriesText (heading line text : String) : Prop :=
  ∃ value : Option String,
    line = heading ++ lineField "chars" (some (toString text.length)) ++ lineField "text" value ∧
      shownText text.length value = text

lemma isDigit_of_mem_toString {n : Nat} : ∀ c ∈ (toString n).toList, c.isDigit = true := by
  intro c hc
  rw [Nat.toString_eq_ofList_toDigits, String.toList_ofList] at hc
  exact Nat.isDigit_of_mem_toDigits (by omega) (by omega) hc

/-- A number is printed without quotes. -/
lemma compactValue_repr (n : Nat) : compactValue n.repr = n.repr := by
  have hspace : n.repr.toList.any isPySpace = false := by
    rw [List.any_eq_false]
    intro c hc
    have hdigit := Char.isDigit_iff_toNat.1 (isDigit_of_mem_toString c hc)
    have hrange : 48 ≤ c.toNat ∧ c.toNat ≤ 57 := hdigit
    simp only [isPySpace, List.mem_cons, List.not_mem_nil, or_false, decide_eq_true_eq]
    omega
  by_cases hempty : n.repr = ""
  · have hlength : 0 < n.repr.length := Nat.length_repr_pos
    simp [hempty] at hlength
  · rw [compactValue, if_neg hempty, hspace]
    rfl

lemma takeWhile_isDigit (n : Nat) (value : Option String) :
    (toString n ++ lineField "text" value).toList.takeWhile Char.isDigit = (toString n).toList := by
  have hnext : (lineField "text" value).toList.takeWhile Char.isDigit = [] := by
    cases value with
    | none => rfl
    | some value => simp [lineField]
  rw [String.toList_append, List.takeWhile_append_of_pos isDigit_of_mem_toString, hnext,
    List.append_nil]

lemma lineField_ne_empty (name value : String) :
    lineField name (some value) ≠ lineField name none := by
  intro h
  have hlength : (" " : String).length + name.length + "=".length + value.length = 0 := by
    simpa [lineField] using congrArg String.length h
  have hblank : (" " : String).length = 1 := rfl
  omega

lemma lineField_inj {name : String} {value other : Option String}
    (h : lineField name value = lineField name other) : value = other := by
  cases value with
  | none =>
    cases other with
    | none => rfl
    | some other => exact absurd h.symm (lineField_ne_empty name other)
  | some value =>
    cases other with
    | none => exact absurd h (lineField_ne_empty name value)
    | some other => simpa [lineField] using h

/-- A line carries one text only after its heading. -/
lemma CarriesText.unique {heading line text other : String} (h : CarriesText heading line text)
    (hother : CarriesText heading line other) : text = other := by
  obtain ⟨value, hline, hread⟩ := h
  obtain ⟨value', hline', hread'⟩ := hother
  have hends : toString text.length ++ lineField "text" value =
      toString other.length ++ lineField "text" value' := by
    rw [hline] at hline'
    simpa [lineField, String.append_assoc] using hline'
  -- the digits in front of the text field are the same, so the numbers are
  have hcount : toString text.length = toString other.length := by
    rw [← String.toList_inj, ← takeWhile_isDigit _ value, hends, takeWhile_isDigit]
  have hvalue : value = value' := by
    rw [hcount, String.append_right_inj] at hends
    exact lineField_inj hends
  rw [← hread, ← hread', hvalue, Nat.repr_injective hcount]

namespace WatchEvent

/-- What stands in front of the text on a line: the kind, the session and the message. -/
def heading (event : WatchEvent) : String :=
  event.kind.name ++ lineField "session" (event.sessionId.map compactValue) ++
    lineField "message" (event.messageId.map compactValue)

/-- A line is the kind of the event and its fields. -/
lemma formatWatchEvent_eq (event : WatchEvent) :
    event.formatWatchEvent = event.kind.name ++
      String.join (event.printedFields.map fun f => lineField f.1 (f.2.map compactValue)) := by
  have hline : ∀ (start : String) (fields : List (String × Option String)),
      " ".intercalate (start :: fields.filterMap fun f =>
          f.2.map fun value => f.1 ++ "=" ++ compactValue value) =
        start ++ String.join (fields.map fun f => lineField f.1 (f.2.map compactValue)) := by
    intro start fields
    induction fields generalizing start with
    | nil => simp [String.join]
    | cons f fields ih =>
      obtain ⟨name, value⟩ := f
      cases value with
      | none => simpa [lineField, String.join_cons] using ih start
      | some value =>
        simp only [List.filterMap_cons, Option.map_some, List.map_cons, String.join_cons,
          String.intercalate_cons_cons, ih]
        simp [lineField, String.append_assoc]
  exact hline event.kind.name event.printedFields

/-- The line printed of a piece of text carries the text. -/
lemma carriesText_formatWatchEvent {event : WatchEvent} (h : event.kind = .text) :
    CarriesText event.heading event.formatWatchEvent (event.text.getD "") := by
  refine ⟨event.text.map compactValue, ?_, ?_⟩
  · rw [formatWatchEvent_eq, printedFields, h]
    simp [heading, h, String.join, compactValue_repr, String.append_assoc]
  · cases htext : event.text with
    | none => rfl
    | some text => exact shownText_compactValue text

/-- What a line shows of an event: it begins with the kind, and where the event is of text, the text
of the event is the one that the line carries. -/
def ShownBy (event : WatchEvent) (line : String) : Prop :=
  (∃ fields, line = event.kind.name ++ fields) ∧
    (event.kind = .text → ∀ text, CarriesText event.heading line text ↔ text = event.text.getD "")

theorem shownBy_formatWatchEvent (event : WatchEvent) : event.ShownBy event.formatWatchEvent := by
  refine ⟨⟨_, event.formatWatchEvent_eq⟩, fun h text => ⟨fun htext => ?_, fun htext => ?_⟩⟩
  · exact htext.unique (carriesText_formatWatchEvent h)
  · rw [htext]
    exact carriesText_formatWatchEvent h

end WatchEvent

end OpencodeSession
