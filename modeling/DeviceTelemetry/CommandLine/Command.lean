/-!
# Commands

What can be asked for on the command line: `schema FILE`, `size FILE`, and `simulate FILE` with
options for the bytes of storage, the number of heartbeats and the format of the result. Options
may stand anywhere behind the command, each at most once, with their value behind an equals sign or
in the next word. Behind two dashes every word is a file.
-/

set_option autoImplicit false

namespace DeviceTelemetry

inductive OutputFormat where
  | hex
  | json
deriving DecidableEq, Repr

inductive Command where
  | schema (path : String)
  | size (path : String)
  | simulate (path : String) (storageBytes heartbeats : Nat) (format : OutputFormat)
deriving DecidableEq, Repr

namespace Command

def path : Command → String
  | schema path => path
  | size path => path
  | simulate path _ _ _ => path

def decimal? (cs : List Char) : Option Nat :=
  if cs ≠ [] ∧ cs.all Char.isDigit then
    some (cs.foldl (fun n c => 10 * n + (c.toNat - 48)) 0)
  else none

/-- A number of at most 64 bits, perhaps behind a plus sign. -/
def storageBytes? (word : String) : Option Nat :=
  let n? :=
    match word.toList with
    | '+' :: cs => decimal? cs
    | cs => decimal? cs
  n?.filter (· < UInt64.size)

def heartbeats? (word : String) : Option Nat :=
  match word.toList with
  | '-' :: cs => (decimal? cs).filter (· = 0)
  | '+' :: cs => (decimal? cs).filter (· < UInt32.size)
  | cs => (decimal? cs).filter (· < UInt32.size)

def format? (word : String) : Option OutputFormat :=
  if word = "hex" then some .hex else if word = "json" then some .json else none

structure Words where
  path : Option String := none
  storageBytes : Option Nat := none
  heartbeats : Option Nat := none
  format : Option OutputFormat := none

/-- Takes note of a file; there is only one, and its name is not empty. -/
def Words.setPath (w : Words) (word : String) : Option Words :=
  if w.path.isSome ∨ word = "" then none else some { w with path := some word }

def Words.setOption (w : Words) (name value : String) : Option Words :=
  match name, w with
  | "--storage-bytes", { storageBytes := none, .. } =>
    (storageBytes? value).map fun n => { w with storageBytes := some n }
  | "--heartbeats", { heartbeats := none, .. } =>
    (heartbeats? value).map fun n => { w with heartbeats := some n }
  | "--format", { format := none, .. } =>
    (format? value).map fun f => { w with format := some f }
  | _, _ => none

def splitOption (word : String) : String × Option String :=
  let cs := word.toList
  let name := cs.takeWhile (· ≠ '=')
  match cs.drop name.length with
  | [] => (word, none)
  | _ :: value => (String.ofList name, some (String.ofList value))

/-- Whether a word looks like an option. A lone dash does not. -/
def looksLikeOption (word : String) : Bool :=
  match word.toList with
  | '-' :: _ :: _ => true
  | _ => false

def Words.read (w : Words) (filesOnly : Bool) : List String → Option Words
  | [] => some w
  | word :: words =>
    if filesOnly || !looksLikeOption word then (w.setPath word).bind (·.read filesOnly words)
    else if word = "--" then w.read true words
    else
      match splitOption word, words with
      | (name, some value), words => (w.setOption name value).bind (·.read false words)
      | (name, none), value :: words =>
        if looksLikeOption value then none
        else (w.setOption name value).bind (·.read false words)
      | (_, none), [] => none

def fileOnly (words : List String) : Option String :=
  match Words.read {} false words with
  | some ⟨path, none, none, none⟩ => path
  | _ => none

/-- The command in the words of a command line, or `none` if they do not form one. -/
def parse : List String → Option Command
  | "schema" :: words => (fileOnly words).map schema
  | "size" :: words => (fileOnly words).map size
  | "simulate" :: words =>
    (Words.read {} false words).bind fun w =>
      w.path.map fun path =>
        simulate path (w.storageBytes.getD 1024) (w.heartbeats.getD 3) (w.format.getD .hex)
  | _ => none

end Command

end DeviceTelemetry
