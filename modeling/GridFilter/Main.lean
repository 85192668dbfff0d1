import GridFilter.Cli.Program

/-! The program on the files, the environment and the streams of the machine it runs on. -/

namespace GridFilter.Cli

/-! ### Files and streams -/

/-- The fault that an error of the machine stands for. -/
def faultOf : IO.Error → FileFault
  | .noFileOrDirectory _ _ _ => .notFound
  | .inappropriateType _ code details =>
    if code = 21 then .isDirectory else if code = 20 then .notDirectory else .other details
  | e => .other (toString e)

/-- The result of an action, or the fault it ended with. -/
def caught {α : Type} (action : IO α) : IO (Except FileFault α) := do
  try
    return .ok (← action)
  catch e =>
    return .error (faultOf e)

/-- The machine as a host. -/
def machine : Host IO where
  read path := caught (IO.FS.readFile path)
  write path text := caught (IO.FS.writeFile path text)
  input := caught do (← IO.getStdin).readToEnd

/-! ### The environment -/

/-- The variables that the settings are read from. -/
def variableNames : List String :=
  ["DXQ_SHORT_CIRCUIT", "DXQ_EXPAND_IN", Settings.policyVariable, "DXQ_MAX_DEPTH", "DXQ_VERBOSITY"]

/-- The variables that are set, with their values. -/
def setVariables : List String → IO (Table String)
  | [] => return []
  | name :: rest => do
    let others ← setVariables rest
    match ← IO.getEnv name with
    | some value => return (name, value) :: others
    | none => return others

/-- The directories in which settings files are looked for: the current one, the one for settings, the home directory
    and the one for the whole machine. -/
def searchDirectories (config home : Option String) : List String :=
  let settings := match config with
    | some path => if path.startsWith "/" then some path else home.map (Path.below · ".config")
    | none => home.map (Path.below · ".config")
  [""] ++ (settings.map (Path.below · "dxq")).toList ++ home.toList ++ ["/etc/dxq"]

end GridFilter.Cli

open GridFilter GridFilter.Cli

/-- Runs the program on the arguments it was started with. -/
def main (args : List String) : IO UInt32 := do
  let directories := searchDirectories (← IO.getEnv "XDG_CONFIG_HOME") (← IO.getEnv "HOME")
  let bindings ← setVariables variableNames
  let ending ← program machine { bindings, directories } args
  IO.print ending.output
  match ending.error with
  | some message => IO.eprintln message
  | none => pure ()
  return ending.code.toUInt32
