import SongPreview.Json.Reader

/-!
# JSON strings

A string stands between double quotes. A backslash starts an escape; four hexadecimal
digits give one UTF-16 unit, and two units of a surrogate pair give one character. A
string whose value nobody wants may hold any units.
-/

namespace SongPreview.Json

/-- The value of a hexadecimal digit. -/
def hexDigit? (c : Char) : Option Nat :=
  if '0' ≤ c ∧ c ≤ '9' then some (c.toNat - '0'.toNat)
  else if 'a' ≤ c ∧ c ≤ 'f' then some (c.toNat - 'a'.toNat + 10)
  else if 'A' ≤ c ∧ c ≤ 'F' then some (c.toNat - 'A'.toNat + 10)
  else none

/-- Four hexadecimal digits. -/
def hexUnit (s : List Char) : Except Stop (Nat × List Char) :=
  match s with
  | a :: b :: c :: d :: rest =>
    match hexDigit? a, hexDigit? b, hexDigit? c, hexDigit? d with
    | some a, some b, some c, some d => .ok (((a * 16 + b) * 16 + c) * 16 + d, rest)
    | _, _, _, _ => .error ⟨.badEscape, s, 4⟩
  | _ =>
    if (String.ofList s).utf8ByteSize < 4 then .error ⟨.endInString, [], 0⟩
    else .error ⟨.badEscape, s, 4⟩

theorem length_lt_of_hexUnit {s rest : List Char} {n : Nat} (h : hexUnit s = .ok (n, rest)) :
    rest.length < s.length := by
  unfold hexUnit at h
  split at h
  · split at h
    · cases h
      simp only [List.length_cons]
      omega
    · cases h
  · split at h <;> cases h

/-- The second unit of a surrogate pair. -/
def lowUnit (s : List Char) : Except Stop (Nat × List Char) :=
  match s with
  | [] => .error ⟨.endInString, s, 0⟩
  | ['\\'] => .error ⟨.endInString, [], 0⟩
  | '\\' :: 'u' :: rest => hexUnit rest
  | '\\' :: _ :: _ => .error ⟨.cutSurrogate, s, 2⟩
  | _ :: _ => .error ⟨.cutSurrogate, s, 1⟩

theorem length_lt_of_lowUnit {s rest : List Char} {n : Nat} (h : lowUnit s = .ok (n, rest)) :
    rest.length < s.length := by
  unfold lowUnit at h
  split at h
  · cases h
  · cases h
  · have := length_lt_of_hexUnit h
    simp only [List.length_cons]
    omega
  · cases h
  · cases h

/-- The character of one unit or of a surrogate pair. -/
def unicode (s : List Char) : Except Stop (Char × List Char) :=
  match hexUnit s with
  | .error stop => .error stop
  | .ok (n, rest) =>
    if 0xDC00 ≤ n ∧ n ≤ 0xDFFF then .error ⟨.loneSurrogate, rest, 0⟩
    else if n < 0xD800 ∨ 0xDBFF < n then .ok (Char.ofNat n, rest)
    else
      match lowUnit rest with
      | .error stop => .error stop
      | .ok (low, after) =>
        if low < 0xDC00 ∨ 0xDFFF < low then .error ⟨.loneSurrogate, after, 0⟩
        else .ok (Char.ofNat ((n - 0xD800) * 1024 + (low - 0xDC00) + 0x10000), after)

theorem length_lt_of_unicode {s rest : List Char} {c : Char} (h : unicode s = .ok (c, rest)) :
    rest.length < s.length := by
  unfold unicode at h
  split at h
  · cases h
  · next hunit =>
    have := length_lt_of_hexUnit hunit
    split at h
    · cases h
    · split at h
      · cases h
        exact this
      · split at h
        · cases h
        · next hlow =>
          have := length_lt_of_lowUnit hlow
          split at h
          · cases h
          · simp only [Except.ok.injEq, Prod.mk.injEq] at h
            obtain ⟨_, rfl⟩ := h
            omega

/-- The character that a letter behind a backslash stands for. -/
def plainEscape? (c : Char) : Option Char :=
  [('"', '"'), ('\\', '\\'), ('/', '/'), ('b', '\x08'), ('f', '\x0c'), ('n', '\n'), ('r', '\r'),
    ('t', '\t')].lookup c

/-- The character of an escape, behind its backslash. -/
def escape (s : List Char) : Except Stop (Char × List Char) :=
  match s with
  | [] => .error ⟨.endInString, [], 0⟩
  | 'u' :: rest => unicode rest
  | c :: rest =>
    match plainEscape? c with
    | some value => .ok (value, rest)
    | none => .error ⟨.badEscape, s, 1⟩

theorem length_lt_of_escape {s rest : List Char} {c : Char} (h : escape s = .ok (c, rest)) :
    rest.length < s.length := by
  unfold escape at h
  split at h
  · cases h
  · have := length_lt_of_unicode h
    simp only [List.length_cons]
    omega
  · split at h
    · cases h
      simp
    · cases h

/-- The characters up to the closing quote, put in front of those read so far, which are
held in reverse. -/
def charactersOnto (out : List Char) : List Char → Except Stop (String × List Char)
  | [] => .error ⟨.endInString, [], 0⟩
  | '"' :: rest => .ok (String.ofList out.reverse, rest)
  | '\\' :: rest =>
    match h : escape rest with
    | .error stop => .error stop
    | .ok (c, after) =>
      have := length_lt_of_escape h
      charactersOnto (c :: out) after
  | c :: rest =>
    if c < ' ' then .error ⟨.controlCharacter, c :: rest, 1⟩
    else charactersOnto (c :: out) rest
termination_by s => s.length
decreasing_by
  all_goals simp only [List.length_cons]
  all_goals omega

/-- The rest of a string whose value is wanted, behind its opening quote. -/
def Reader.characters : Reader String := charactersOnto []

/-- The rest of a string whose value nobody wants, behind its opening quote. -/
def passCharacters : List Char → Except Stop (Unit × List Char)
  | [] => .error ⟨.endInString, [], 0⟩
  | '"' :: rest => .ok ((), rest)
  | '\\' :: 'u' :: rest =>
    match h : hexUnit rest with
    | .error stop => .error stop
    | .ok (_, after) =>
      have := length_lt_of_hexUnit h
      passCharacters after
  | '\\' :: c :: rest =>
    if (plainEscape? c).isSome then passCharacters rest
    else .error ⟨.badEscape, c :: rest, 1⟩
  | ['\\'] => .error ⟨.endInString, [], 0⟩
  | c :: rest =>
    if c < ' ' then .error ⟨.controlCharacter, c :: rest, 1⟩ else passCharacters rest
termination_by s => s.length
decreasing_by
  all_goals simp only [List.length_cons]
  all_goals omega

end SongPreview.Json
