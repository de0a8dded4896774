import ContextPack.Revision.Range

/-!
# Errors

What goes wrong for a caller.  Only wrong input is an error: a file that
cannot be read or a walk that is cut short makes a poorer context instead.
-/

namespace ContextPack

inductive ContextError where
  | repositoryNotFound (path : String)
  | bareRepository (path : String)
  | invalidRange (range : String) (problem : RangeProblem)
  | invalidBudget
  | invalidConfig (problems : String)
  | git (why : String)
deriving DecidableEq

namespace ContextError

def message : ContextError → String
  | repositoryNotFound path => "not a git working tree: " ++ path
  | bareRepository path => "repository at " ++ path ++ " has no working directory"
  | invalidRange range problem => "invalid diff range '" ++ range ++ "': " ++ problem.reason
  | invalidBudget => "token budget must be a positive integer"
  | invalidConfig problems => "invalid configuration: " ++ problems
  | git why => "git error: " ++ why

end ContextError

end ContextPack
