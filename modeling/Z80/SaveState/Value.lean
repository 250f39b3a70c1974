/-!
# Values of a saved state

A saved state is a tree of numbers, texts, lists and named fields. Numbers that are not whole have no
place in it but may be met when one is read.
-/

namespace Z80

/-- A value of a saved state. -/
inductive Value where
  | null
  | flag (b : Bool)
  | integer (n : Int)
  /-- A number that is not whole. -/
  | fraction
  | text (s : String)
  | list (items : List Value)
  | fields (items : List (String × Value))
  deriving Inhabited

namespace Value

/-- A whole number from zero up. -/
def ofNat (n : Nat) : Value := integer n

/-- The whole number, if it is one from zero up to a bound, the bound not included. -/
def natBelow? (bound : Nat) : Value → Option Nat
  | integer (.ofNat n) => if n < bound then some n else none
  | _ => none

def flag? : Value → Option Bool
  | flag b => some b
  | _ => none

def text? : Value → Option String
  | text s => some s
  | _ => none

def list? : Value → Option (List Value)
  | list items => some items
  | _ => none

/-- All that is given under a name. -/
def given (name : String) : Value → List Value
  | fields items => items.filterMap fun item => if item.1 = name then some item.2 else none
  | _ => []

/-- The value of a named field. A field that is given more than once has none. -/
def field? (name : String) (v : Value) : Option Value :=
  match v.given name with
  | [x] => some x
  | _ => none

/-- The values of the named fields, in the order of the names. Fields that are not asked for do not
count, however often they are given. -/
def select? (names : List String) : Value → Option (List Value)
  | fields items => names.mapM fun name => (fields items).field? name
  | _ => none

/-- The members of a record: its named fields, or a list with one item for each name. -/
def members? (names : List String) : Value → Option (List Value)
  | fields items => select? names (fields items)
  | list items => if items.length = names.length then some items else none
  | _ => none

/-- A case of a choice: its name, and what comes with it. A case that comes with nothing may be
written as the bare name. -/
def case? : Value → Option (String × Value)
  | text name => some (name, null)
  | fields [(name, content)] => some (name, content)
  | _ => none

/-- A case that comes with fields. -/
def ofCase (name : String) (content : List (String × Value)) : Value :=
  fields [(name, fields content)]

end Value

end Z80
