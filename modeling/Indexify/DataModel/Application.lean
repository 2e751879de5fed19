import Indexify.DataModel.Resources
import Indexify.DataModel.Runs

/-! Functions, application versions and placement labels. -/
namespace Indexify

inductive Operator
  | eq
  | neq
  deriving DecidableEq

def Operator.toString : Operator → String
  | eq => "=="
  | neq => "!="

structure Expression where
  key : String
  value : String
  operator : Operator
  deriving DecidableEq

def Expression.toString (e : Expression) : String := e.key++e.operator.toString++e.value

abbrev LabelsFilter := List Expression

/-- Every expression needs its label to be present, also a `!=`. -/
def LabelsFilter.matches (filter : LabelsFilter) (values : Dict String String) : Bool :=
  filter.all fun expr =>
    match values.lookup expr.key with
    | some value =>
      match expr.operator with
      | .eq => value=expr.value
      | .neq => value≠expr.value
    | none => false

structure FunctionRetryPolicy where
  maxRetries : ℕ
  deriving DecidableEq

structure Function where
  name : String
  placementConstraints : LabelsFilter
  secretNames : Option (List String)
  timeoutMs : ℕ
  resources : FunctionResources
  retryPolicy : FunctionRetryPolicy
  maxConcurrency : ℕ
  deriving DecidableEq

inductive ApplicationState
  | active
  | disabled (reason : String)
  deriving DecidableEq

structure ApplicationVersion where
  «namespace» : String
  name : String
  version : String
  functions : Dict String Function
  state : ApplicationState

namespace ApplicationVersion

def keyFrom («namespace» applicationName version : String) : String :=
  «namespace»++"|"++applicationName++"|"++version

def key (av : ApplicationVersion) : String := keyFrom av.namespace av.name av.version

def keyPrefixFrom («namespace» name : String) : String := «namespace»++"|"++name++"|"

def functionRunMaxRetries (av : ApplicationVersion) (run : FunctionRun) : Option ℕ :=
  (av.functions.lookup run.name).map fun f => f.retryPolicy.maxRetries

def createFunctionRun (av : ApplicationVersion) (call : FunctionCall)
    (inputArgs : List InputArgs) (requestId : String) : FunctionRun where
  id := call.functionCallId
  requestId := requestId
  «namespace» := av.namespace
  application := av.name
  version := av.version
  name := call.fnName
  computeOp := .functionCall call
  inputArgs := inputArgs
  childFunctionCall := none
  output := none
  status := .pending
  outcome := none
  attemptNumber := 0
  callMetadata := call.callMetadata
  requestError := none

end ApplicationVersion
end Indexify
