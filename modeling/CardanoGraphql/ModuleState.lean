import Mathlib.Data.List.Basic

namespace CardanoGraphql

/-- `RunnableModuleState`; the modules that do not run never have the last one. -/
inductive ModuleState
  | null
  | initializing
  | initialized
  | running
deriving DecidableEq, Repr

namespace ModuleState

def isNotInitialized (moduleName methodName : String) : String :=
  methodName ++ " cannot be called until " ++ moduleName ++ " is initialized"

end ModuleState

end CardanoGraphql
