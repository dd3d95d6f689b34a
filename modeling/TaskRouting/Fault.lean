import TaskRouting.Text.Quoted
/-!
Everything that can go wrong outside an ordinary failed response, and its
wording.

A task that fails in the ordinary way says so by its result code. The errors
here come from the collaborators (agents, the API registry, task lookup,
stores) and from definitions that do not hold together (workflows, catalogs).
-/

namespace TaskRouting

/-- An error with the contexts that were put around it, the innermost cause
first. -/
structure Chain where
  causes : List String
  deriving DecidableEq

namespace Chain

/-- The outermost context alone. -/
def outermost (c : Chain) : String := c.causes.getLastD ""

/-- All of it, from the outermost context to the cause. -/
def full (c : Chain) : String := String.intercalate ": " c.causes.reverse

end Chain

/-- Why an agent delivers no messages. -/
inductive AgentError where
  | generationFailed (reason : String)
  | invalidInput (input : String)
  | other (cause : Chain)
  deriving DecidableEq

/-- What is said of an agent that delivers no messages. -/
def AgentError.message : AgentError → String
  | generationFailed reason => "Generation failed: " ++ reason
  | invalidInput input => "Invalid agent input: " ++ input
  | other cause => "Agent error: " ++ cause.outermost

/-- Why an API cannot be used. -/
inductive ApiError where
  | notConfigured (api : String)
  | inactive (api : String)
  deriving DecidableEq

/-- What is said of an API that cannot be used. -/
def ApiError.message : ApiError → String
  | notConfigured api => "API not configured: " ++ api
  | inactive api => "API inactive: " ++ api

/-- The lookup of a task broke, which is not the same as finding none. -/
inductive LookupError where
  | failed (name reason : String)
  deriving DecidableEq

/-- What is said of a lookup that broke. -/
def LookupError.message : LookupError → String
  | failed name reason =>
    "Task lookup failed for '" ++ name ++ "': " ++ reason

/-- Why a store does not keep or return a record. -/
inductive StoreError where
  | serialization
  | write
  | directory (reason : String)
  | rejected (reason : String)
  deriving DecidableEq

/-- What is said of a record that is not kept or not returned. -/
def StoreError.message : StoreError → String
  | serialization => "Serialization failed"
  | write => "Write failed"
  | directory reason => "Directory creation failed: " ++ reason
  | rejected reason => "Store rejected response: " ++ reason

/-- Why a workflow definition is refused. -/
inductive WorkflowError where
  | empty (workflow : String)
  | unknownStart (workflow start : String)
  | unknownSource (workflow task : String)
  | noAttempts (workflow : String)
  deriving DecidableEq

/-- What is said of a workflow definition that is refused. -/
def WorkflowError.message : WorkflowError → String
  | empty workflow => "Workflow '" ++ workflow ++ "' cannot be empty"
  | unknownStart workflow start =>
    "Start task '" ++ start ++ "' is not defined in workflow '"
      ++ workflow ++ "'"
  | unknownSource workflow task =>
    "Routing entry for unknown task '" ++ task ++ "' in workflow '"
      ++ workflow ++ "'"
  | noAttempts workflow =>
    "max_attempts must be at least 1 (workflow '" ++ workflow ++ "')"

/-- Why a catalog document is refused. -/
inductive CatalogError where
  | duplicateKey (key : String)
  | missingField (task field : String)
  | unknownAgent (task agent : String)
  | unknownParameter (task parameter : String)
  | unknownTask (owner task : String)
  | containmentCycle (members : List String)
  | invalidWorkflow (cause : WorkflowError)
  deriving DecidableEq

/-- What is said of a catalog document that is refused. An invalid workflow
speaks for itself. -/
def CatalogError.message : CatalogError → String
  | duplicateKey key => "Duplicate task key: " ++ key
  | missingField task field =>
    "Task '" ++ task ++ "' is missing required field '" ++ field ++ "'"
  | unknownAgent task agent =>
    "Task '" ++ task ++ "' references unknown agent '" ++ agent ++ "'"
  | unknownParameter task parameter =>
    "Task '" ++ task ++ "' references unknown parameter '" ++ parameter ++ "'"
  | unknownTask owner task =>
    "Task '" ++ owner ++ "' references unknown task '" ++ task ++ "'"
  | containmentCycle members =>
    "Task containment cycle involving: " ++ Text.quotedList members
  | invalidWorkflow cause => cause.message

/-- What stops a task without a response. It passes through all workflows
around the task unchanged. -/
inductive Fault where
  | lookup (error : LookupError)
  | api (error : ApiError)
  | other (cause : Chain)
  deriving DecidableEq

/-- What is said of a fault, with the outermost context alone. -/
def Fault.message : Fault → String
  | lookup error => error.message
  | api error => error.message
  | other cause => "Task fault: " ++ cause.outermost

/-- The text of a fault with all of its causes. -/
def Fault.fullMessage : Fault → String
  | other cause => cause.full
  | fault => fault.message

end TaskRouting
