import GridFilter.DataMap.Load
import GridFilter.Text.Pattern

/-! Resolving the name of a placeholder. The name is an entity and an attribute with a dot between them; what happens
    when the record has no such attribute is a matter of policy. -/

namespace GridFilter

/-! ### Policy -/

/-- What an attribute that is missing from its record stands for: the first attribute of the record, or nothing. -/
inductive MissingAttribute where
  | firstProperty
  | unresolved
deriving DecidableEq, Repr, Inhabited

namespace MissingAttribute

/-- The name of a policy. -/
def name : MissingAttribute → String
  | .firstProperty => "first-property"
  | .unresolved => "unresolved"

/-- The policy with this name exactly. -/
def ofName? (name : String) : Option MissingAttribute :=
  if name = "first-property" then some .firstProperty
  else if name = "unresolved" then some .unresolved
  else none

/-- The policy that a user's text names: blanks around it, letter case, and underscores for hyphens do not matter,
    and each policy has a short name. -/
def read? (text : String) : Option MissingAttribute :=
  let word := String.ofList ((Text.trim text.toList).map fun c => if c = '_' then '-' else c.toLower)
  if word = "first-property" ∨ word = "first" then some .firstProperty
  else if word = "unresolved" ∨ word = "none" then some .unresolved
  else none

/-- The message about a text that names no policy. -/
def invalid (text : String) : String := "Invalid value '" ++ text ++ "' for missing_attribute"

end MissingAttribute

/-! ### Names -/

/-- The text that stands for a placeholder without a value: its name in braces. -/
def unresolvedText (name : String) : String := .ofList (Text.inBraces name.toList)

/-- Gives the value of a placeholder by its name, or nothing. -/
abbrev Resolver := String → Option Value

namespace Resolver

/-- The value of a placeholder, or its name in braces where it has none. -/
def valueOf (resolve : Resolver) (name : String) : Value := (resolve name).getD (.string (unresolvedText name))

end Resolver

namespace DataMap

/-- The value in a record where the attribute asked for is missing. -/
def missing (policy : MissingAttribute) (record : Record) : Option Value :=
  match policy with
  | .firstProperty => record.head?.map Prod.snd
  | .unresolved => none

/-- The value of a placeholder: that of its attribute in the first record of its entity, and where the attribute is
    missing or not named, what the policy says. Without a record there is no value. -/
def resolve (data : DataMap) (policy : MissingAttribute) : Resolver := fun name =>
  match splitName? name with
  | some (entity, property) =>
    match data.record? entity with
    | none => none
    | some record =>
      match record.lookup property with
      | some value => some value
      | none => missing policy record
  | none => (data.record? name).bind (missing policy)

end DataMap

end GridFilter
