import PluginRegistry.Text.Hex

/-!
# Quoted strings in TOML

Basic strings, with escapes, and literal strings, without, each on one line or on several. A reader
starts behind the opening quotes and gives the content and what follows the closing ones.
-/

namespace PluginRegistry.Toml

/-- A tab, or any character that is not an ASCII control. -/
def isPlain (c : Char) : Bool := c = '\t' || (0x20 ≤ c.toNat && c.toNat ≠ 0x7f)

def isSpace (c : Char) : Bool := c = ' ' || c = '\t'

def skipSpace (cs : List Char) : List Char := cs.dropWhile isSpace

def push (c : Char) : Option (List Char × List Char) → Option (List Char × List Char) :=
  Option.map fun (content, rest) => (c :: content, rest)

/-- The character with a given number, unless it is a surrogate or too large. -/
def scalar? (n : Nat) : Option Char := if n.isValidChar then some (Char.ofNat n) else none

/-- Takes a character by its number of so many hexadecimal digits. -/
def readCode (digits : Nat) (cs : List Char) : Option (Char × List Char) :=
  if cs.length < digits then none
  else do
    let c ← scalar? (← ((cs.take digits).mapM Text.hexDigit?).map fun ds => ds.foldl (16 * · + ·) 0)
    return (c, cs.drop digits)

def readEscape : List Char → Option (Char × List Char)
  | 'b' :: r => some ('\x08', r)
  | 't' :: r => some ('\t', r)
  | 'n' :: r => some ('\n', r)
  | 'f' :: r => some ('\x0c', r)
  | 'r' :: r => some ('\r', r)
  | 'e' :: r => some ('\x1b', r)
  | '"' :: r => some ('"', r)
  | '\\' :: r => some ('\\', r)
  | 'x' :: r => readCode 2 r
  | 'u' :: r => readCode 4 r
  | 'U' :: r => readCode 8 r
  | _ => none

theorem length_readCode {n : Nat} {cs r : List Char} {c : Char} (h : readCode n cs = some (c, r)) :
    r.length ≤ cs.length := by
  unfold readCode at h
  split at h
  · simp at h
  · simp only [Option.bind_eq_bind, Option.bind_eq_some_iff, Option.pure_def, Option.some.injEq,
      Prod.mk.injEq] at h
    obtain ⟨_, _, _, _, _, rfl⟩ := h
    simp

theorem length_readEscape {cs r : List Char} {c : Char} (h : readEscape cs = some (c, r)) :
    r.length < cs.length := by
  unfold readEscape at h
  split at h
  case h_9 | h_10 | h_11 => exact Nat.lt_succ_of_le (length_readCode h)
  case h_12 => simp at h
  all_goals
    simp only [Option.some.injEq, Prod.mk.injEq] at h
    obtain ⟨_, rfl⟩ := h
    exact Nat.lt_succ_self _

/-- The content of a basic string on one line. -/
def readBasic : List Char → Option (List Char × List Char)
  | [] => none
  | '"' :: r => some ([], r)
  | '\\' :: r =>
    match h : readEscape r with
    | some (c, r') =>
      have : r'.length < r.length := length_readEscape h
      push c (readBasic r')
    | none => none
  | c :: r => if isPlain c then push c (readBasic r) else none
termination_by cs => cs.length

/-- The content of a literal string on one line. -/
def readLiteral : List Char → Option (List Char × List Char)
  | [] => none
  | '\'' :: r => some ([], r)
  | c :: r => if isPlain c then push c (readLiteral r) else none

/-- A line break: a line feed, which a carriage return may precede. -/
def newline? : List Char → Option (List Char)
  | '\n' :: r => some r
  | '\r' :: '\n' :: r => some r
  | _ => none

def skipNewline (cs : List Char) : List Char := (newline? cs).getD cs

/-- Skips spaces and line breaks. -/
def skipBlank : List Char → List Char
  | '\r' :: '\n' :: r => skipBlank r
  | ' ' :: r => skipBlank r
  | '\t' :: r => skipBlank r
  | '\n' :: r => skipBlank r
  | cs => cs

/-- What follows a backslash that ends its line: the blanks behind it are skipped. -/
def continued? (cs : List Char) : Option (List Char) := (newline? (skipSpace cs)).map skipBlank

theorem length_newline? {cs r : List Char} (h : newline? cs = some r) : r.length < cs.length := by
  unfold newline? at h
  split at h <;> simp at h <;> subst h <;> simp only [List.length_cons] <;> omega

theorem length_skipBlank (cs : List Char) : (skipBlank cs).length ≤ cs.length := by
  fun_induction skipBlank cs <;> simp <;> omega

theorem length_continued? {cs r : List Char} (h : continued? cs = some r) :
    r.length < cs.length := by
  obtain ⟨s, hs, rfl⟩ := Option.map_eq_some_iff.1 h
  have h1 := length_newline? hs
  have h2 := length_skipBlank s
  have h3 : (skipSpace cs).length ≤ cs.length := (List.dropWhile_sublist _).length_le
  omega

/-- The content of a basic string on several lines. Two quotes more than the closing three may stand
at its end. -/
def readBasicLines : List Char → Option (List Char × List Char)
  | [] => none
  | '"' :: '"' :: '"' :: '"' :: '"' :: r => some (['"', '"'], r)
  | '"' :: '"' :: '"' :: '"' :: r => some (['"'], r)
  | '"' :: '"' :: '"' :: r => some ([], r)
  | '\r' :: '\n' :: r => push '\r' (push '\n' (readBasicLines r))
  | '\\' :: r =>
    match h : continued? r with
    | some r' =>
      have : r'.length < r.length := length_continued? h
      readBasicLines r'
    | none =>
      match h : readEscape r with
      | some (c, r') =>
        have : r'.length < r.length := length_readEscape h
        push c (readBasicLines r')
      | none => none
  | c :: r => if c = '\n' || isPlain c then push c (readBasicLines r) else none
termination_by cs => cs.length

/-- The content of a literal string on several lines. -/
def readLiteralLines : List Char → Option (List Char × List Char)
  | [] => none
  | '\'' :: '\'' :: '\'' :: '\'' :: '\'' :: r => some (['\'', '\''], r)
  | '\'' :: '\'' :: '\'' :: '\'' :: r => some (['\''], r)
  | '\'' :: '\'' :: '\'' :: r => some ([], r)
  | '\r' :: '\n' :: r => push '\r' (push '\n' (readLiteralLines r))
  | c :: r => if c = '\n' || isPlain c then push c (readLiteralLines r) else none

/-- Takes a quoted string of any form. A line break behind three opening quotes is dropped. -/
def readQuotation : List Char → Option (List Char × List Char)
  | '"' :: '"' :: '"' :: r => readBasicLines (skipNewline r)
  | '"' :: r => readBasic r
  | '\'' :: '\'' :: '\'' :: r => readLiteralLines (skipNewline r)
  | '\'' :: r => readLiteral r
  | _ => none

end PluginRegistry.Toml
