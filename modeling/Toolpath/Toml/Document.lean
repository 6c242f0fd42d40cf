import Toolpath.Toml.Scalar
import Toolpath.Toml.Token

/-!
# TOML documents

A document is a list of statements, one a line: a key with a value, a table header, or the header
of one more table in an array of tables. A statement that gives a key a second value, or extends a
table that is complete, makes the document invalid. A number without a value does not; it is
refused where its value is looked at.
-/

namespace Toolpath.Toml

/-- How a table came into being, which decides what may still be added to it. -/
inductive TableKind where
  /-- By a header of its own. -/
  | declared
  /-- As the parent of a table with a header. -/
  | implied
  /-- By a dotted key, or as a parent that a dotted key has entered since. -/
  | dotted
  /-- In braces, which makes it complete. -/
  | inline
deriving DecidableEq, Repr

mutual

inductive Value where
  | scalar (value : Scalar)
  | text (value : String)
  | list (items : List Value)
  | table (value : Table)
  /-- An array of tables with headers: the latest, and the earlier ones backwards. -/
  | tables (latest : Table) (earlier : List Table)

inductive Table where
  | mk (kind : TableKind) (entries : List (String × Value))

end

mutual

def Value.isReadable : Value → Bool
  | .scalar value => value.isReadable
  | .text _ => true
  | .list items => allReadable items
  | .table value => value.isReadable
  | .tables latest earlier => latest.isReadable && allTablesReadable earlier

def allReadable : List Value → Bool
  | [] => true
  | item :: items => item.isReadable && allReadable items

def allTablesReadable : List Table → Bool
  | [] => true
  | item :: items => item.isReadable && allTablesReadable items

def Table.isReadable : Table → Bool
  | .mk _ entries => allEntriesReadable entries

def allEntriesReadable : List (String × Value) → Bool
  | [] => true
  | (_, value) :: entries => value.isReadable && allEntriesReadable entries

end

namespace Table

def kind : Table → TableKind
  | mk kind _ => kind

def entries : Table → List (String × Value)
  | mk _ entries => entries

def get? (t : Table) (key : String) : Option Value := t.entries.lookup key

def empty (kind : TableKind) : Table := mk kind []

def withKind (t : Table) (kind : TableKind) : Table := mk kind t.entries

/-- Gives a key its value, in the place of its former one if it has one. -/
def set (t : Table) (key : String) (value : Value) : Table :=
  if (t.get? key).isSome then
    mk t.kind (t.entries.map fun entry => if entry.1 = key then (key, value) else entry)
  else mk t.kind (t.entries ++ [(key, value)])

def isImplicit (t : Table) : Bool := t.kind == .implied || t.kind == .dotted

/-- Changes the table at a path, where an array of tables stands for its latest one and missing
tables are made. A dotted key enters only tables that no header has declared, and none may declare
them from then on. -/
def updateAt (dotted : Bool) (path : List String) (f : Table → Option Table) (t : Table) :
    Option Table :=
  match path with
  | [] => f t
  | key :: path =>
    match t.get? key with
    | none =>
      (updateAt dotted path f (empty (if dotted then .dotted else .implied))).map fun child =>
        t.set key (.table child)
    | some (.table child) =>
      if child.kind == .inline || (dotted && !child.isImplicit) then none
      else
        let child := if dotted then child.withKind .dotted else child
        (updateAt dotted path f child).map fun child => t.set key (.table child)
    | some (.tables latest earlier) =>
      (updateAt dotted path f latest).map fun latest => t.set key (.tables latest earlier)
    | some _ => none

/-- Adds a value under a dotted key. The table that gets it must be this one, or one that dotted
keys have made or entered. -/
def insert? (t : Table) (path : List String) (key : String) (value : Value) : Option Table :=
  t.updateAt true path fun parent =>
    if (parent.kind == .dotted) == path.isEmpty || (parent.get? key).isSome then none
    else some (parent.set key value)

/-- Declares a table by its header. A table that only exists as a parent may still be declared. -/
def declare? (t : Table) (path : List String) (key : String) : Option Table :=
  t.updateAt false path fun parent =>
    match parent.get? key with
    | none => some (parent.set key (.table (empty .declared)))
    | some (.table child) =>
      if child.kind == .implied then some (parent.set key (.table (child.withKind .declared)))
      else none
    | some _ => none

def append? (t : Table) (path : List String) (key : String) : Option Table :=
  t.updateAt false path fun parent =>
    match parent.get? key with
    | none => some (parent.set key (.tables (empty .declared) []))
    | some (.tables latest earlier) =>
      some (parent.set key (.tables (empty .declared) (latest :: earlier)))
    | some _ => none

end Table

/-! ### Keys and values -/

def isBlankTree : Tree → Bool
  | .leaf (.blank _) => true
  | _ => false

def isBlankOrBreakTree : Tree → Bool
  | .leaf (.blank _) | .leaf .newline => true
  | _ => false

def isLeaf (token : Token) : Tree → Bool
  | .leaf other => other = token
  | _ => false

/-- The trees without those at their ends that a property holds of. -/
def strip (p : Tree → Bool) (trees : List Tree) : List Tree :=
  ((trees.dropWhile p).reverse.dropWhile p).reverse

def isKeyChar (c : Char) : Bool := c.isAlphanum || c == '_' || c == '-'

def keyPart? (trees : List Tree) : Option String :=
  match strip isBlankTree trees with
  | [.leaf (.bare chars)] => if chars.all isKeyChar then some (String.ofList chars) else none
  | [.leaf (.string value false)] => some (String.ofList value)
  | _ => none

def greatestKeyLength : Nat := 80

/-- A dotted key: the path of its table and the last part. -/
def key? (trees : List Tree) : Option (List String × String) := do
  let parts ← (trees.splitOnP (isLeaf .dot)).mapM keyPart?
  let last ← parts.getLast?
  if parts.length ≤ greatestKeyLength then some (parts.dropLast, last) else none

def plainChars? : Tree → Option (List Char)
  | .leaf (.bare chars) | .leaf (.blank chars) => some chars
  | .leaf .dot => some ['.']
  | _ => none

def plainText? (trees : List Tree) : Option (List Char) :=
  (trees.mapM plainChars?).map List.flatten

/-- The items of a group, between commas. A comma may follow the last item, and line breaks may
stand around all of them. -/
def groupItems? (trees : List Tree) : Option (List (List Tree)) :=
  let items := (trees.splitOnP (isLeaf .comma)).map (strip isBlankOrBreakTree)
  let items := if items.getLast?.any List.isEmpty then items.dropLast else items
  if items.any List.isEmpty then none else some items

/-- The key and the value of a statement, on both sides of its equals sign. -/
def splitEquals? (trees : List Tree) : Option (List Tree × List Tree) :=
  match trees.dropWhile fun tree => !isLeaf .equals tree with
  | _ :: value => some (trees.takeWhile fun tree => !isLeaf .equals tree, value)
  | [] => none

/-- The value that trees spell, with at most `depth` groups inside each other. In braces line breaks
may stand on both sides of an equals sign. -/
def value? (depth : Nat) (trees : List Tree) : Option Value :=
  match strip isBlankTree trees with
  | [.leaf (.string value _)] => some (.text (String.ofList value))
  | [.square items] => match depth with
    | 0 => none
    | depth + 1 => do
      let items ← groupItems? items
      return .list (← items.mapM (value? depth))
  | [.brace items] => match depth with
    | 0 => none
    | depth + 1 => do
      let items ← groupItems? items
      let entries ← items.mapM fun item => do
        let (key, value) ← splitEquals? item
        return (← key? (strip isBlankOrBreakTree key),
          ← value? depth (strip isBlankOrBreakTree value))
      let table ← entries.foldlM (fun table ((path, key), value) => table.insert? path key value)
        (Table.empty .declared)
      return .table (table.withKind .inline)
  | trees => do return .scalar (← scalar? (← plainText? trees))

/-! ### Statements -/

def greatestDepth : Nat := 80

/-- The document so far, and the table that key-value statements now belong to: a path through
headers. -/
structure Reading where
  root : Table := .empty .declared
  header : List String := []

namespace Reading

def take? (r : Reading) (line : List Tree) : Option Reading :=
  match strip isBlankTree line with
  | [] => some r
  | [.square [.square key]] => do
    let (path, key) ← key? key
    return ⟨← r.root.append? path key, path ++ [key]⟩
  | [.square key] => do
    let (path, key) ← key? key
    return ⟨← r.root.declare? path key, path ++ [key]⟩
  | line => do
    let (key, value) ← splitEquals? line
    let (path, key) ← key? key
    let value ← value? greatestDepth value
    let root ← r.root.updateAt false r.header fun table => table.insert? path key value
    return { r with root := root }

end Reading

def parse? (document : List Char) : Option Table := do
  let trees ← trees? (← tokensOfDocument? document)
  let reading ← (trees.splitOnP (isLeaf .newline)).foldlM Reading.take? {}
  return reading.root

end Toolpath.Toml
