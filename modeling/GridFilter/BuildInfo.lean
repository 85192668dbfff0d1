/-! What a build of the program knows of itself. -/

namespace GridFilter

/-- The version of the program, and what else is known of its build. -/
structure BuildInfo where
  version : String
  commit : Option String := none
  built : Option String := none
  compiler : Option String := none
deriving DecidableEq, Repr

namespace BuildInfo

/-- The name of the program. -/
def program : String := "dxq"

/-- The known details with their labels. -/
def details (info : BuildInfo) : List (String × String) :=
  [("commit", info.commit), ("built", info.built), ("rustc", info.compiler)].filterMap fun (label, value) =>
    value.map (label, ·)

/-- The program and its version, with the known details in parentheses. -/
def text (info : BuildInfo) : String :=
  let known := info.details.map fun (label, value) => label ++ " " ++ value
  let shown := if known.isEmpty then "" else " (" ++ ", ".intercalate known ++ ")"
  program ++ " " ++ info.version ++ shown

end BuildInfo

end GridFilter
