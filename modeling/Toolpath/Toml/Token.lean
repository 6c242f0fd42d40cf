/-!
# TOML tokens

The text of a TOML document as a list of tokens. Comments are left out, the contents of strings are
decoded, and brackets are matched into groups, so that what follows never looks for the end of a
string or of a group.
-/

namespace Toolpath.Toml

inductive Token where
  | blank (chars : List Char)
  /-- A line feed, which a carriage return may precede. -/
  | newline
  | dot
  | comma
  | equals
  | openSquare
  | closeSquare
  | openBrace
  | closeBrace
  /-- A string. One that may span lines cannot be a key. -/
  | string (value : List Char) (multiline : Bool)
  /-- A run of any other characters. Quotes belong to it where it does not begin with them. -/
  | bare (chars : List Char)
deriving DecidableEq, Repr

def isBlank (c : Char) : Bool := c == ' ' || c == '\t'

/-- Characters that a comment or a string may hold: no control characters but the tab. -/
def isTextChar (c : Char) : Bool := c == '\t' || (0x20 ≤ c.toNat && c.toNat != 0x7F)

def isBareChar (c : Char) : Bool :=
  !(isBlank c || ['\n', '\r', '.', ',', '=', '[', ']', '\x7b', '\x7d', '#'].contains c)

/-! ### Strings -/

/-- The contents of a string on one line, from behind its opening quote, and what follows it. In a
string with escapes a backslash keeps the next character from closing the string. -/
def takeQuoted (quote : Char) (escapes : Bool) : List Char → Option (List Char × List Char)
  | [] => none
  | c :: rest =>
    if c = quote then some ([], rest)
    else if escapes && c == '\\' then
      match rest with
      | [] => none
      | d :: rest =>
        (takeQuoted quote escapes rest).map fun (body, after) => (c :: d :: body, after)
    else (takeQuoted quote escapes rest).map fun (body, after) => (c :: body, after)

/-- The contents of a string that three quotes close. Up to two more quotes belong to it. -/
def takeMultiline (quote : Char) (escapes : Bool) : List Char → Option (List Char × List Char)
  | [] => none
  | c :: rest =>
    if c = quote && rest.take 2 == [quote, quote] then
      let after := rest.drop 2
      let extra := min 2 (after.takeWhile (· == quote)).length
      some (after.take extra, after.drop extra)
    else if escapes && c == '\\' then
      match rest with
      | [] => none
      | d :: rest =>
        (takeMultiline quote escapes rest).map fun (body, after) => (c :: d :: body, after)
    else (takeMultiline quote escapes rest).map fun (body, after) => (c :: body, after)

theorem length_of_takeQuoted {quote : Char} {escapes : Bool} {s body after : List Char}
    (h : takeQuoted quote escapes s = some (body, after)) : after.length < s.length := by
  fun_induction takeQuoted quote escapes s generalizing body after with
  | case1 => simp at h
  | case2 rest =>
    simp only [Option.some.injEq, Prod.mk.injEq] at h
    simp [h.2]
  | case3 => simp at h
  | case4 c d rest _ _ ih =>
    simp only [Option.map_eq_some_iff, Prod.exists, Prod.mk.injEq] at h
    obtain ⟨_, _, h, _, rfl⟩ := h
    have := ih h
    simp only [List.length_cons]
    omega
  | case5 c rest _ _ ih =>
    simp only [Option.map_eq_some_iff, Prod.exists, Prod.mk.injEq] at h
    obtain ⟨_, _, h, _, rfl⟩ := h
    have := ih h
    simp only [List.length_cons]
    omega

theorem length_of_takeMultiline {quote : Char} {escapes : Bool} {s body after : List Char}
    (h : takeMultiline quote escapes s = some (body, after)) : after.length < s.length := by
  fun_induction takeMultiline quote escapes s generalizing body after with
  | case1 => simp at h
  | case2 =>
    simp only [Option.some.injEq, Prod.mk.injEq] at h
    simp +zetaDelta only [← h.2, List.length_drop, List.length_cons]
    omega
  | case3 => simp at h
  | case4 c d rest _ _ ih =>
    simp only [Option.map_eq_some_iff, Prod.exists, Prod.mk.injEq] at h
    obtain ⟨_, _, h, _, rfl⟩ := h
    have := ih h
    simp only [List.length_cons]
    omega
  | case5 c rest _ _ ih =>
    simp only [Option.map_eq_some_iff, Prod.exists, Prod.mk.injEq] at h
    obtain ⟨_, _, h, _, rfl⟩ := h
    have := ih h
    simp only [List.length_cons]
    omega

def hexValue? (c : Char) : Option Nat :=
  if c.isDigit then some (c.toNat - '0'.toNat)
  else if 'a' ≤ c.toLower && c.toLower ≤ 'f' then some (c.toLower.toNat - 'a'.toNat + 10)
  else none

def charOfHex? (digits : List Char) : Option Char :=
  (digits.mapM hexValue?).bind fun values =>
    let n := values.foldl (fun n value => 16 * n + value) 0
    if n.isValidChar then some (Char.ofNat n) else none

def simpleEscape? : Char → Option Char
  | 'b' => some '\x08'
  | 't' => some '\t'
  | 'n' => some '\n'
  | 'f' => some '\x0c'
  | 'r' => some '\r'
  | 'e' => some '\x1b'
  | '"' => some '"'
  | '\\' => some '\\'
  | _ => none

def breaksLine (s : List Char) : Bool :=
  match s.dropWhile isBlank with
  | '\n' :: _ | '\r' :: '\n' :: _ => true
  | _ => false

/-- What follows the blanks and line breaks at the front of a text. -/
def skipBreaks : List Char → List Char
  | '\r' :: '\n' :: rest => skipBreaks rest
  | c :: rest => if isBlank c || c == '\n' then skipBreaks rest else c :: rest
  | [] => []

theorem length_skipBreaks_le (s : List Char) : (skipBreaks s).length ≤ s.length := by
  fun_induction skipBreaks s with
  | case1 rest ih | case2 c rest _ _ ih =>
    simp only [List.length_cons]
    omega
  | case3 | case4 => exact Nat.le_refl _

/-- The contents of a string with its escapes read. Over several lines, line breaks are contents,
and a backslash at the end of a line hides the blanks and breaks that follow. -/
def unescape (multiline : Bool) : List Char → Option (List Char)
  | [] => some []
  | '\\' :: rest =>
    if multiline && breaksLine rest then unescape multiline (skipBreaks rest)
    else match rest with
      | 'x' :: a :: b :: rest => do
        return (← charOfHex? [a, b]) :: (← unescape multiline rest)
      | 'u' :: a :: b :: c :: d :: rest => do
        return (← charOfHex? [a, b, c, d]) :: (← unescape multiline rest)
      | 'U' :: a :: b :: c :: d :: e :: f :: g :: h :: rest => do
        return (← charOfHex? [a, b, c, d, e, f, g, h]) :: (← unescape multiline rest)
      | c :: rest => do return (← simpleEscape? c) :: (← unescape multiline rest)
      | [] => none
  | '\r' :: '\n' :: rest =>
    if multiline then (unescape multiline rest).map ('\r' :: '\n' :: ·) else none
  | c :: rest =>
    if isTextChar c || (multiline && c == '\n') then (unescape multiline rest).map (c :: ·)
    else none
termination_by s => s.length
decreasing_by
  all_goals simp_wf
  all_goals try omega
  have := length_skipBreaks_le rest
  omega

def isLiteral (multiline : Bool) : List Char → Bool
  | [] => true
  | '\r' :: '\n' :: rest => multiline && isLiteral multiline rest
  | c :: rest => (isTextChar c || (multiline && c == '\n')) && isLiteral multiline rest

/-- The value of a string, given its contents. A line break right behind three opening quotes does
not count. -/
def stringValue? (escapes multiline : Bool) (body : List Char) : Option (List Char) :=
  let body := match multiline, body with
    | true, '\n' :: rest => rest
    | true, '\r' :: '\n' :: rest => rest
    | _, body => body
  if escapes then unescape multiline body
  else if isLiteral multiline body then some body else none

/-! ### The text as tokens -/

/-- The first token of a text and what follows it; a comment is no token. -/
def nextToken? (c : Char) (rest : List Char) : Option (Option Token × List Char) :=
  match c with
  | '\n' => some (some .newline, rest)
  | '\r' => match rest with
    | '\n' :: rest => some (some .newline, rest)
    | _ => none
  | '.' => some (some .dot, rest)
  | ',' => some (some .comma, rest)
  | '=' => some (some .equals, rest)
  | '[' => some (some .openSquare, rest)
  | ']' => some (some .closeSquare, rest)
  | '\x7b' => some (some .openBrace, rest)
  | '\x7d' => some (some .closeBrace, rest)
  | '#' =>
    let comment := rest.takeWhile fun c => c != '\n' && c != '\r'
    let after := rest.dropWhile fun c => c != '\n' && c != '\r'
    if comment.all isTextChar then some (none, after) else none
  | c =>
    if c == '"' || c == '\'' then
      let escapes := c == '"'
      if rest.take 2 == [c, c] then
        (takeMultiline c escapes (rest.drop 2)).bind fun (body, after) =>
          (stringValue? escapes true body).map fun value => (some (.string value true), after)
      else
        (takeQuoted c escapes rest).bind fun (body, after) =>
          (stringValue? escapes false body).map fun value => (some (.string value false), after)
    else if isBlank c then
      some (some (.blank (c :: rest.takeWhile isBlank)), rest.dropWhile isBlank)
    else some (some (.bare (c :: rest.takeWhile isBareChar)), rest.dropWhile isBareChar)

theorem length_of_nextToken? {c : Char} {rest after : List Char} {token : Option Token}
    (h : nextToken? c rest = some (token, after)) : after.length ≤ rest.length := by
  unfold nextToken? at h
  split at h
  case h_2 =>
    split at h
    · simp only [Option.some.injEq, Prod.mk.injEq] at h
      simp [← h.2]
    · simp at h
  case h_10 =>
    simp only [Option.ite_none_right_eq_some, Option.some.injEq, Prod.mk.injEq] at h
    rw [← h.2.2]
    exact (List.dropWhile_sublist _).length_le
  case h_11 =>
    split at h
    · simp only at h
      split at h
      · simp only [Option.bind_eq_some_iff, Option.map_eq_some_iff, Prod.exists,
          Prod.mk.injEq] at h
        obtain ⟨_, _, h, _, _, _, rfl⟩ := h
        have := length_of_takeMultiline h
        simp only [List.length_drop] at this
        omega
      · simp only [Option.bind_eq_some_iff, Option.map_eq_some_iff, Prod.exists,
          Prod.mk.injEq] at h
        obtain ⟨_, _, h, _, _, _, rfl⟩ := h
        exact Nat.le_of_lt (length_of_takeQuoted h)
    · split at h <;> simp only [Option.some.injEq, Prod.mk.injEq] at h <;> rw [← h.2] <;>
        exact (List.dropWhile_sublist _).length_le
  all_goals
    simp only [Option.some.injEq, Prod.mk.injEq] at h
    simp [h.2]

def tokens? : List Char → Option (List Token)
  | [] => some []
  | c :: rest =>
    match _h : nextToken? c rest with
    | none => none
    | some (token, after) => (tokens? after).map (token.toList ++ ·)
termination_by s => s.length
decreasing_by exact Nat.lt_succ_of_le (length_of_nextToken? _h)

/-- The tokens of a document, whose first character may be a byte order mark. -/
def tokensOfDocument? : List Char → Option (List Token)
  | '\uFEFF' :: s => tokens? s
  | s => tokens? s

/-! ### Groups -/

/-- A token that is no bracket, or everything between two matching brackets. -/
inductive Tree where
  | leaf (token : Token)
  | square (items : List Tree)
  | brace (items : List Tree)

/-- The groups that are still open, each with its bracket and its items so far, innermost first.
Items are listed backwards. -/
structure Nesting where
  items : List Tree := []
  outer : List (Token × List Tree) := []

namespace Nesting

def add (n : Nesting) (tree : Tree) : Nesting := { n with items := tree :: n.items }

def enter (n : Nesting) (bracket : Token) : Nesting :=
  { items := [], outer := (bracket, n.items) :: n.outer }

def leave? (n : Nesting) (bracket : Token) (group : List Tree → Tree) : Option Nesting :=
  match n.outer with
  | (opening, items) :: outer =>
    if opening = bracket then some { items := group n.items.reverse :: items, outer := outer }
    else none
  | [] => none

def take? (n : Nesting) : Token → Option Nesting
  | .openSquare => some (n.enter .openSquare)
  | .openBrace => some (n.enter .openBrace)
  | .closeSquare => n.leave? .openSquare .square
  | .closeBrace => n.leave? .openBrace .brace
  | token => some (n.add (.leaf token))

end Nesting

/-- The tokens with their groups, if all brackets match. -/
def trees? (tokens : List Token) : Option (List Tree) :=
  (tokens.foldlM Nesting.take? {}).bind fun n =>
    if n.outer.isEmpty then some n.items.reverse else none

end Toolpath.Toml
