import Walkthrough.Value.Snapshot

/-! What one step of a run did, and the sentences that tell it. A step is built from frozen values
when it happens, so it reads the same ever after. -/

namespace Walkthrough

inductive Step where
  | log (value : Snapshot)
  | declare (name : String) (value : Snapshot)
  | assign (name : String) (value : Snapshot)
  | changeElement (name : String) (index value : Snapshot)
  | call (name : String) (args : List Snapshot) (result : Snapshot)
  | giveBack (value : Option Snapshot)
  | condition (kind : String) (value : Bool)
  | iterate (iteration total : Nat)
  | visit (name : String) (value : Snapshot) (index : Nat)
  | skippedLoop (kind : String)
  | expression (value : Snapshot)
  | leaveLoop
  | nextIteration
  | failed (message : String)

namespace Step

def summary : Step → String
  | .log value => "This line wrote " ++ value.display ++ " to the console."
  | .declare name value =>
    "This line created a new variable called " ++ name ++ " with the value " ++ value.display ++ "."
  | .assign name value =>
    "This line updated the variable " ++ name ++ " to " ++ value.display ++ "."
  | .changeElement name index value =>
    "This line changed element " ++ index.display ++ " of " ++ name ++ " to " ++ value.display
      ++ "."
  | .call name _ .nothing => "This line used the " ++ name ++ " function."
  | .call name _ result =>
    "This line used the " ++ name ++ " function, which returned " ++ result.display ++ "."
  | .giveBack (some value) => "This line returned " ++ value.display ++ " from the function."
  | .giveBack none => "This line returned from the function."
  | .condition kind value =>
    "This " ++ kind ++ " condition evaluated to " ++ (if value then "true" else "false") ++ "."
  | .iterate _ total => "This line repeats its body " ++ Number.digits total ++ " times."
  | .visit name value _ => "This loop set " ++ name ++ " to " ++ value.display ++ "."
  | .skippedLoop kind => "This " ++ kind ++ " loop did not run its body."
  | .expression value => "This line evaluated to " ++ value.display ++ "."
  | .leaveLoop => "This line stopped the loop."
  | .nextIteration => "This line skipped to the next iteration of the loop."
  | .failed message => "Something went wrong: " ++ message

def evaluated (value : Snapshot) : String :=
  "Jiki evaluated the expression, getting " ++ value.display ++ "."

def details : Step → List String
  | .log value => [evaluated value]
  | .declare name value =>
    [evaluated value,
     "Jiki created a new box called " ++ name ++ " and put " ++ value.display ++ " in it."]
  | .assign name value =>
    ["Jiki replaced the contents of the " ++ name ++ " box with " ++ value.display ++ "."]
  | .changeElement name index value =>
    ["Jiki put " ++ value.display ++ " into position " ++ index.display ++ " of " ++ name ++ "."]
  | .call name args _ =>
    ["Jiki called " ++ name ++ "(" ++ ", ".intercalate (args.map Snapshot.display) ++ ")."]
  | .giveBack (some value) => [evaluated value]
  | .giveBack none => []
  | .condition _ true => ["Jiki ran the code in the block."]
  | .condition _ false => ["Jiki skipped the code in the block."]
  | .iterate iteration total =>
    ["This is iteration " ++ Number.digits iteration ++ " of " ++ Number.digits total ++ "."]
  | .visit _ _ index => ["This is iteration " ++ Number.digits index ++ "."]
  | .skippedLoop _ => ["There was nothing to iterate over, so Jiki moved on."]
  | .expression _ => []
  | .leaveLoop => []
  | .nextIteration => []
  | .failed _ => []

/-- The main sentence, then one line for each further one. -/
def describe (step : Step) : String :=
  step.details.foldl (fun text detail => text ++ "\n  - " ++ detail) step.summary

end Step
end Walkthrough
