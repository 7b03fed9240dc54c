import AccessControl.Proofs.Sql.Token

/-!
# A fragment of SQL

Tables and indexes that are created unless they are there, rows that are inserted, deleted, counted
or listed, and conditions that set columns against one another and against the values of places.
A text is read as the query it is; a text outside the fragment is not read.
-/

namespace AccessControl.Sql

structure ColumnRef where
  table? : Option String
  name : String
deriving DecidableEq, Repr

inductive Condition where
  | equals (c : ColumnRef) (place : String)
  | among (c : ColumnRef) (place : String)
  | same (c d : ColumnRef)
deriving DecidableEq, Repr

structure TableRef where
  table : String
  name : String
deriving DecidableEq, Repr

inductive Filter where
  | meets (c : Condition)
  | within (c d : ColumnRef) (t : TableRef) (cs : List Condition)
deriving DecidableEq, Repr

inductive ColumnType where
  | bigint
  | bigserial
  | timestamptz
  | varchar
deriving DecidableEq, Repr

structure ColumnDeclaration where
  name : String
  type : ColumnType
  target? : Option (String × String)
deriving DecidableEq, Repr

structure Declaration where
  table : String
  columns : List ColumnDeclaration
  unique : List (List String)
deriving DecidableEq, Repr

inductive Query where
  | createTable (d : Declaration)
  | createIndex (name table : String) (columns : List String)
  | insert (table : String) (columns : List String) (places : List String)
    (sparing : Option (List String))
  | delete (t : TableRef) (fs : List Filter)
  | count (ts : List TableRef) (fs : List Filter)
  | present (ts : List TableRef) (fs : List Filter)
  | select (c : ColumnRef) (ts : List TableRef) (fs : List Filter) (order : Option ColumnRef)
deriving DecidableEq, Repr

namespace Token

/-- Tokens cut at each of one kind that stands outside brackets. -/
def split (x : Token) : Nat → List Token → List (List Token)
  | _, [] => [[]]
  | 0, y :: ys => if y = x then [] :: split x 0 ys else within y (split x (deepen y 0) ys)
  | depth + 1, y :: ys => within y (split x (deepen y (depth + 1)) ys)
where
  deepen : Token → Nat → Nat
    | .symbol '(', depth => depth + 1
    | .symbol ')', depth => depth - 1
    | _, depth => depth
  within (y : Token) : List (List Token) → List (List Token)
    | [] => [[y]]
    | ys :: yss => (y :: ys) :: yss

def enclosed? (xs : List Token) : Option (List Token × List Token) :=
  match split (.symbol ')') 0 xs with
  | [ys, zs] => some (ys, zs)
  | _ => none

def places? : List Token → Option (List String)
  | [.symbol '$', .word n] => some [n]
  | .symbol '$' :: .word n :: .symbol ',' :: xs => (places? xs).map fun ns => n :: ns
  | _ => none

def names? : List Token → Option (List String)
  | [.word a] => some [a]
  | .word a :: .symbol ',' :: xs => (names? xs).map fun as => a :: as
  | _ => none

def column? : List Token → Option (ColumnRef × List Token)
  | .word t :: .symbol '.' :: .word c :: xs => some (⟨some t, c⟩, xs)
  | .word c :: xs => some (⟨none, c⟩, xs)
  | _ => none

def condition? (xs : List Token) : Option Condition :=
  match column? xs with
  | some (c, [.symbol '=', .symbol '$', .word n]) => some (.equals c n)
  | some (c, [.symbol '=', .word "any", .symbol '(', .symbol '$', .word n, .symbol ')']) =>
    some (.among c n)
  | some (c, .symbol '=' :: xs) =>
    match column? xs with
    | some (d, []) => some (.same c d)
    | _ => none
  | _ => none

def conditions? (xs : List Token) : Option (List Condition) :=
  (split (.word "and") 0 xs).mapM condition?

def filter? (xs : List Token) : Option Filter :=
  match column? xs with
  | some (c, .word "in" :: .symbol '(' :: .word "select" :: xs) =>
    match column? xs with
    | some (d, .word "from" :: .word t :: .word "where" :: xs) =>
      match enclosed? xs with
      | some (xs, []) => (conditions? xs).map (.within c d ⟨t, t⟩)
      | _ => none
    | _ => none
  | _ => (condition? xs).map .meets

def filters? (xs : List Token) : Option (List Filter) := (split (.word "and") 0 xs).mapM filter?

def chosen? : List Token → Option (List TableRef × List Filter)
  | [.word t] => some ([⟨t, t⟩], [])
  | .word t :: .word "where" :: xs => (filters? xs).map fun fs => ([⟨t, t⟩], fs)
  | .word t :: .word a :: .word "join" :: .word u :: .word b :: .word "on" :: xs =>
    match (split (.word "where") 0 xs).mapM filters? with
    | some [fs] => some ([⟨t, a⟩, ⟨u, b⟩], fs)
    | some [fs, gs] => some ([⟨t, a⟩, ⟨u, b⟩], fs ++ gs)
    | _ => none
  | _ => none

def type? : List Token → Option (ColumnType × List Token)
  | .word "bigint" :: xs => some (.bigint, xs)
  | .word "bigserial" :: xs => some (.bigserial, xs)
  | .word "timestamptz" :: xs => some (.timestamptz, xs)
  | .word "varchar" :: .symbol '(' :: .word _ :: .symbol ')' :: xs => some (.varchar, xs)
  | _ => none

def target? : List Token → Option (Option (String × String))
  | [] => some none
  | .word "primary" :: .word "key" :: xs => target? xs
  | .word "not" :: .word "null" :: xs => target? xs
  | .word "default" :: .word "now" :: .symbol '(' :: .symbol ')' :: xs => target? xs
  | [.word "references", .word t, .symbol '(', .word c, .symbol ')', .word "on", .word "delete",
      .word "restrict"] => some (some (t, c))
  | _ => none

def declaration? (table : String) : List (List Token) → Option Declaration
  | [] => some ⟨table, [], []⟩
  | (.word "unique" :: .symbol '(' :: xs) :: xss =>
    match enclosed? xs, declaration? table xss with
    | some (xs, []), some d => (names? xs).map fun u => { d with unique := u :: d.unique }
    | _, _ => none
  | (.word c :: xs) :: xss =>
    match type? xs, declaration? table xss with
    | some (type, xs), some d =>
      (target? xs).map fun target? => { d with columns := ⟨c, type, target?⟩ :: d.columns }
    | _, _ => none
  | _ => none

def create? : List Token → Option Query
  | .word "table" :: .word "if" :: .word "not" :: .word "exists" :: .word t :: .symbol '(' :: xs =>
    match enclosed? xs with
    | some (xs, []) => (declaration? t (split (.symbol ',') 0 xs)).map .createTable
    | _ => none
  | .word "index" :: .word "if" :: .word "not" :: .word "exists" :: .word i :: .word "on" ::
      .word t :: .symbol '(' :: xs =>
    match enclosed? xs with
    | some (xs, []) => (names? xs).map (.createIndex i t)
    | _ => none
  | _ => none

/-- The columns of a row that is given up, rather than refused, if another has the same values. -/
def sparing? : List Token → Option (Option (List String))
  | [] => some none
  | .word "on" :: .word "conflict" :: .symbol '(' :: xs =>
    match enclosed? xs with
    | some (xs, [.word "do", .word "nothing"]) => (names? xs).map some
    | _ => none
  | _ => none

def insert? (table : String) (xs : List Token) : Option Query :=
  match enclosed? xs with
  | some (xs, .word "values" :: .symbol '(' :: ys) =>
    match enclosed? ys with
    | some (ys, zs) =>
      match names? xs, places? ys, sparing? zs with
      | some columns, some places, some sparing =>
        if columns.length = places.length then some (.insert table columns places sparing) else none
      | _, _, _ => none
    | _ => none
  | _ => none

def delete? (xs : List Token) : Option Query :=
  match chosen? xs with
  | some ([t], fs) => some (.delete t fs)
  | _ => none

def select? : List Token → Option Query
  | .word "exists" :: .symbol '(' :: .word "select" :: .word "1" :: .word "from" :: xs =>
    match enclosed? xs with
    | some (xs, []) => (chosen? xs).map fun (ts, fs) => .present ts fs
    | _ => none
  | .word "count" :: .symbol '(' :: .symbol '*' :: .symbol ')' :: .word "from" :: xs =>
    (chosen? xs).map fun (ts, fs) => .count ts fs
  | xs =>
    match column? xs with
    | some (c, .word "from" :: .word t :: xs) =>
      match split (.word "order") 0 xs with
      | [xs] => (chosen? (.word t :: xs)).map fun (ts, fs) => .select c ts fs none
      | [xs, .word "by" :: ys] =>
        match column? ys with
        | some (d, []) => (chosen? (.word t :: xs)).map fun (ts, fs) => .select c ts fs (some d)
        | _ => none
      | _ => none
    | _ => none

def query? : List Token → Option Query
  | .word "create" :: xs => create? xs
  | .word "insert" :: .word "into" :: .word t :: .symbol '(' :: xs => insert? t xs
  | .word "delete" :: .word "from" :: xs => delete? xs
  | .word "select" :: xs => select? xs
  | _ => none

end Token

def Query.read? (text : String) : Option Query := Token.query? (Token.ofText text)

end AccessControl.Sql
