import TableStore.Json.Lexer

/-!
# Reading JSON

The text is read token by token, and a stage remembers what has been read and what may come next.
The arrays and objects still open are a stack, so that no nesting is too deep.

* `Stage.step`    the stage after one more token, if that token may stand there;
* `Json.read?`    the tree that a text writes.
-/

namespace TableStore.Json

/-- an open array with its items, or an open object with its members and the key whose value is
due; the last item or member comes first -/
inductive Frame where
  | items (done : List Json)
  | member (done : List (Option String × Json)) (key : Option String)

/-- what has been read, and what may come next -/
inductive Stage where
  /-- a value -/
  | value (stack : List Frame)
  /-- a value, or the end of an array that has no items yet -/
  | firstItem (stack : List Frame)
  /-- a key, or the end of an object that has no members yet -/
  | firstKey (stack : List Frame)
  /-- a key -/
  | key (done : List (Option String × Json)) (stack : List Frame)
  /-- the colon after a key -/
  | colon (done : List (Option String × Json)) (key : Option String) (stack : List Frame)
  /-- a comma, or the end of an array -/
  | afterItem (done : List Json) (stack : List Frame)
  /-- a comma, or the end of an object -/
  | afterMember (done : List (Option String × Json)) (stack : List Frame)
  /-- nothing more -/
  | complete (j : Json)

/-- the members of an object, if every key is a text; the last member comes first -/
def members? : List (Option String × Json) → List (String × Json) → Option (List (String × Json))
  | [], ms => some ms
  | (none, _) :: _, _ => none
  | (some k, j) :: done, ms => members? done ((k, j) :: ms)

/-- the tree of an object; a key that is no text makes it foreign -/
def ofMembers (done : List (Option String × Json)) : Json :=
  match members? done [] with
  | some ms => object ms
  | none => foreign

def ofText : Option String → Json
  | some s => string s
  | none => foreign

namespace Stage

/-- after a value, inside what is open -/
def finish (j : Json) : List Frame → Stage
  | [] => complete j
  | .items done :: stack => afterItem (j :: done) stack
  | .member done k :: stack => afterMember ((k, j) :: done) stack

/-- at a token where a value is due -/
def start (stack : List Frame) : Token → Option Stage
  | .scalar j => some (finish j stack)
  | .text s => some (finish (ofText s) stack)
  | .openArray => some (firstItem stack)
  | .openObject => some (firstKey stack)
  | _ => none

/-- at the next token, if it may stand there -/
def step : Stage → Token → Option Stage
  | value stack, t => start stack t
  | firstItem stack, .closeArray => some (finish (array []) stack)
  | firstItem stack, t => start (.items [] :: stack) t
  | firstKey stack, .closeObject => some (finish (object []) stack)
  | firstKey stack, .text k => some (colon [] k stack)
  | key done stack, .text k => some (colon done k stack)
  | colon done k stack, .colon => some (value (.member done k :: stack))
  | afterItem done stack, .comma => some (value (.items done :: stack))
  | afterItem done stack, .closeArray => some (finish (array done.reverse) stack)
  | afterMember done stack, .comma => some (key done stack)
  | afterMember done stack, .closeObject => some (finish (ofMembers done) stack)
  | _, _ => none

/-- after all the characters of a text, if every token may stand where it does -/
def run? (s : Stage) : List Char → Option Stage
  | [] => some s
  | c :: cs =>
    if isBlank c then s.run? cs
    else
      match h : token? c cs with
      | none => none
      | some (t, rest) =>
        have := length_of_token? h
        match s.step t with
        | none => none
        | some s => s.run? rest
termination_by cs => cs.length
decreasing_by all_goals simp only [List.length_cons]; omega

end Stage

def read? (text : String) : Option Json :=
  match (Stage.value []).run? text.toList with
  | some (.complete j) => some j
  | _ => none

end TableStore.Json
