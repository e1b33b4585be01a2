/-
  Reading JSON texts. The tokens run through a machine with a stack of open arrays and
  objects; a text is accepted if the machine ends with one finished value. At most 127
  arrays and objects may be around each other in what is read of it.

  `readParts?` and `asWritten?` keep repeated keys, `read?` settles them.
-/
import OrmGen.Json.Token
import OrmGen.Json.Written

namespace OrmGen.Json

/-- An array or object that is still open, its finished parts in reverse order. An object
also holds the key whose value is being read. -/
inductive Frame where
  | items (done : List Written)
  | members (done : List (List Literal.Piece × Written)) (key : List Literal.Piece)

/-- What may come next. -/
inductive Awaiting where
  | value
  | valueOrClose
  | key
  | keyOrClose
  | colon
  | commaOrClose
  | nothing (result : Written)

/-- The reader between two tokens. -/
structure Machine where
  frames : List Frame
  awaiting : Awaiting

namespace Machine

def start : Machine := ⟨[], .value⟩

/-- Hand a finished value to the innermost open frame. -/
def place (v : Written) : List Frame → Machine
  | [] => ⟨[], .nothing v⟩
  | .items done :: fs => ⟨.items (v :: done) :: fs, .commaOrClose⟩
  | .members done key :: fs => ⟨.members ((key, v) :: done) key :: fs, .commaOrClose⟩

/-- Close the innermost frame, which has to be an array. -/
def closeArray? : List Frame → Option Machine
  | .items done :: fs => some (place (.array done.reverse) fs)
  | _ => none

/-- Close the innermost frame, which has to be an object. -/
def closeObject? : List Frame → Option Machine
  | .members done _ :: fs => some (place (.object done.reverse) fs)
  | _ => none

/-- The value that a word is. -/
def ofWord? (cs : List Char) : Option Written :=
  if cs = "null".toList then some .null
  else if cs = "true".toList then some (.bool true)
  else if cs = "false".toList then some (.bool false)
  else (Number.spelling? cs).map .number

/-- Begin or read a value. -/
def value? (fs : List Frame) (t : Token) : Option Machine :=
  match t with
  | .openArray => some ⟨.items [] :: fs, .valueOrClose⟩
  | .openObject => some ⟨.members [] [] :: fs, .keyOrClose⟩
  | .string ps => some (place (.string ps) fs)
  | .word cs => (ofWord? cs).map fun v => place v fs
  | _ => none

/-- Set the key of the innermost object. -/
def key? (fs : List Frame) (t : Token) : Option Machine :=
  match t, fs with
  | .string k, .members done _ :: fs => some ⟨.members done k :: fs, .colon⟩
  | _, _ => none

/-- Read one token. -/
def step? (m : Machine) (t : Token) : Option Machine :=
  match m.awaiting with
  | .value => value? m.frames t
  | .valueOrClose =>
    match t with
    | .closeArray => closeArray? m.frames
    | t => value? m.frames t
  | .key => key? m.frames t
  | .keyOrClose =>
    match t with
    | .closeObject => closeObject? m.frames
    | t => key? m.frames t
  | .colon =>
    match t with
    | .colon => some ⟨m.frames, .value⟩
    | _ => none
  | .commaOrClose =>
    match t, m.frames with
    | .comma, .items _ :: _ => some ⟨m.frames, .value⟩
    | .comma, .members _ _ :: _ => some ⟨m.frames, .key⟩
    | .closeArray, fs => closeArray? fs
    | .closeObject, fs => closeObject? fs
    | _, _ => none
  | .nothing _ => none

/-- The value of a machine that has finished. -/
def result? (m : Machine) : Option Written :=
  match m.awaiting with
  | .nothing v => some v
  | _ => none

end Machine

/-- What a text writes. -/
def Written.ofText? (s : String) : Option Written := do
  let tokens ← Token.list? s.toList
  (← tokens.foldlM Machine.step? Machine.start).result?

/-- The greatest number of arrays and objects around each other. -/
def maxDepth : Nat := 127

/-- The parts of a text's value that belong to `form`, with repeated keys kept. -/
def readParts? (form : Form) (s : String) : Option Json :=
  (Written.ofText? s).bind (Written.read? maxDepth form)

/-- The value that a text spells, with repeated keys kept. -/
def asWritten? (s : String) : Option Json := readParts? .whole s

/-- The value that a text spells, with repeated keys settled. -/
def read? (s : String) : Option Json := (asWritten? s).map settled

theorem distinct_of_read? {s : String} {v : Json} (h : read? s = some v) : v.Distinct := by
  obtain ⟨w, _, rfl⟩ := Option.map_eq_some_iff.1 h
  exact distinct_settled w

end OrmGen.Json
