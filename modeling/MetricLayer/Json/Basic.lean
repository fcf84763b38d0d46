namespace MetricLayer

/-- The tree that a JSON or TOML text denotes. Members of an object keep their order and may repeat
a name; what a repeated name means is for the reader of the object to say. -/
inductive Json where
  | null
  | bool (value : Bool)
  | int (value : Int)
  | float (value : Float)
  | string (value : String)
  | array (items : List Json)
  | object (members : List (String × Json))
deriving Inhabited

namespace Json

def int64Min : Int := -9223372036854775808

def int64Max : Int := 9223372036854775807

def uint64Max : Int := 18446744073709551615

def member? (members : List (String × Json)) (name : String) : Option Json :=
  members.reverse.lookup name

def string? : Json → Option String
  | string value => some value
  | _ => none

def array? : Json → Option (List Json)
  | array items => some items
  | _ => none

def object? : Json → Option (List (String × Json))
  | object members => some members
  | _ => none

/-- What a record does with members of other names. -/
inductive OtherMembers where
  | refused
  | ignored
deriving DecidableEq, Repr

def hasRepeated : List String → Bool
  | [] => false
  | name :: rest => rest.contains name || hasRepeated rest

/-- A record is an object whose members are known by name. It may also be written as an array that
gives the members in the order of their definition and may stop early. No member may be given
twice. -/
def record? (names : List String) (others : OtherMembers) :
    Json → Option (List (String × Json))
  | object members =>
      let known := members.filter fun member => names.contains member.1
      if hasRepeated (known.map (·.1)) then none
      else if others = .refused ∧ known.length ≠ members.length then none
      else some known
  | array items => if items.length ≤ names.length then some (names.zip items) else none
  | _ => none

def required? {α : Type} (members : List (String × Json)) (name : String)
    (decode : Json → Option α) : Option α :=
  members.lookup name >>= decode

def withDefault? {α : Type} (members : List (String × Json)) (name : String)
    (decode : Json → Option α) (default : α) : Option α :=
  match members.lookup name with
  | none => some default
  | some tree => decode tree

/-- A member that may be missing or null. -/
def optional? {α : Type} (members : List (String × Json)) (name : String)
    (decode : Json → Option α) : Option (Option α) :=
  match members.lookup name with
  | none | some null => some none
  | some tree => (decode tree).map some

def strings? : Json → Option (List String)
  | array items => items.mapM string?
  | _ => none

/-- An object whose names are free. Of two members with one name the later one counts, and both must
decode. -/
def entries? {α : Type} (decode : Json → Option α) : Json → Option (List (String × α))
  | object members => members.mapM fun (name, tree) => do
      let value ← decode tree
      some (name, value)
  | _ => none

end Json

end MetricLayer
