import MapLayers.Text.Digit

/-!
# Arguments

The command comes first, then the path of the map document and options in any order. An option may be
shortened as long as only one fits, and may take its value after an equals sign. After two dashes
nothing is an option. Asking for help ends the reading at once; other mistakes count where they are
met.
-/

namespace MapLayers

/-- What a call can end in before anything is run. -/
inductive Usage where
  | help
  | invalid
  deriving DecidableEq, Repr

inductive Flag where
  | help
  | config
  | verbose
  | output
  | omitData
  deriving DecidableEq, Repr

inductive Command where
  | compile (output : Option String) (omitData : Bool)
  | validate
  deriving DecidableEq, Repr

structure Arguments where
  command : Command
  mapPath : String
  config : Option String
  verbose : Bool
  deriving DecidableEq, Repr

namespace Flag

def name : Flag → List Char
  | help => "--help".toList
  | config => "--config".toList
  | verbose => "--verbose".toList
  | output => "--output".toList
  | omitData => "--omit-data".toList

def takesValue : Flag → Bool
  | config | output => true
  | help | verbose | omitData => false

def common : List Flag := [help, config, verbose]

def ofCompile : List Flag := common ++ [output, omitData]

end Flag

/-- One argument, seen by itself. -/
inductive Lexeme where
  | flag (flag : Flag)
  | valued (flag : Flag) (value : String)
  /-- A value behind an option that takes none. -/
  | mistake
  | ambiguous
  | unknown
  | plain (text : String)
  | separator
  deriving DecidableEq, Repr

namespace Lexeme

def withValue (flag : Flag) (value : List Char) : Lexeme :=
  if flag.takesValue then valued flag (String.ofList value) else mistake

/-- The short form of help, which may be repeated within one argument; what follows in it does not
matter unless it is a value or another dash. -/
def shortHelp (more : List Char) : Lexeme :=
  match more.dropWhile (· = 'h') with
  | '=' :: _ | '-' :: _ => mistake
  | _ => flag .help

def isNegativeNumber (cs : List Char) : Bool :=
  let whole := cs.takeWhile Text.isDigit
  match cs.dropWhile Text.isDigit with
  | [] => !whole.isEmpty
  | '.' :: fraction => !fraction.isEmpty && fraction.all Text.isDigit
  | _ => false

/-- An argument with two dashes that is no full name; `rest` starts at its equals sign. -/
def shortened (flags : List Flag) (start rest : List Char) : Option Lexeme :=
  match flags.filter fun f => start.isPrefixOf f.name with
  | [] => none
  | [f] =>
    match rest with
    | '=' :: value => some (withValue f value)
    | _ => some (flag f)
  | _ => some ambiguous

def stray (cs : List Char) (afterDash : List Char) : Lexeme :=
  if isNegativeNumber afterDash || cs.contains ' ' then plain (String.ofList cs) else unknown

def ofText (flags : List Flag) (s : String) : Lexeme :=
  match s.toList with
  | ['-'] => plain s
  | ['-', '-'] => separator
  | '-' :: '-' :: rest =>
    let cs := '-' :: '-' :: rest
    let start := cs.takeWhile (· ≠ '=')
    let behind := cs.dropWhile (· ≠ '=')
    match flags.find? fun f => f.name = start, behind with
    | some f, '=' :: value => withValue f value
    | some f, _ => flag f
    | none, _ => (shortened flags start behind).getD (stray cs ('-' :: rest))
  | '-' :: 'h' :: more => shortHelp more
  | '-' :: rest => stray ('-' :: rest) rest
  | _ => plain s

def ofTexts (flags : List Flag) : List String → List Lexeme
  | [] => []
  | s :: rest =>
    match ofText flags s with
    | separator => separator :: rest.map plain
    | lexeme => lexeme :: ofTexts flags rest

end Lexeme

/-- What has been read of the arguments behind a command. -/
structure Draft where
  mapPath : Option String
  config : Option String
  output : Option String
  verbose : Bool
  omitData : Bool
  surplus : Bool

namespace Draft

def empty : Draft := ⟨none, none, none, false, false, false⟩

def setValue (d : Draft) (flag : Flag) (value : String) : Draft :=
  match flag with
  | .config => { d with config := some value }
  | .output => { d with output := some value }
  | _ => d

def turnOn (d : Draft) : Flag → Draft
  | .verbose => { d with verbose := true }
  | .omitData => { d with omitData := true }
  | _ => d

/-- The first plain argument is the path of the map document, all others are too many. -/
def addPlain (d : Draft) (value : String) : Draft :=
  match d.mapPath with
  | none => { d with mapPath := some value }
  | some _ => { d with surplus := true }

def addSurplus (d : Draft) : Draft := { d with surplus := true }

/-- A separator belongs to the path next to it; anywhere else it is too many. -/
def read (d : Draft) : List Lexeme → Except Usage Draft
  | [] => .ok d
  | .flag f :: rest =>
    if f = .help then .error .help
    else if f.takesValue then
      match rest with
      | .plain value :: rest => read (d.setValue f value) rest
      | _ => .error .invalid
    else read (d.turnOn f) rest
  | .valued f value :: rest => read (d.setValue f value) rest
  | .mistake :: _ => .error .invalid
  | .ambiguous :: _ => .error .invalid
  | .unknown :: rest => read d.addSurplus rest
  | .separator :: rest =>
    if d.mapPath.isNone && !rest.isEmpty then read d rest else read d.addSurplus rest
  | .plain value :: .separator :: rest =>
    read (if d.mapPath.isNone then d.addPlain value else d.addSurplus) rest
  | .plain value :: rest => read (d.addPlain value) rest

end Draft

namespace Arguments

def readDraft (flags : List Flag) (args : List String) : Except Usage Draft := do
  let lexemes := Lexeme.ofTexts flags args
  if lexemes.contains .ambiguous then throw .invalid
  let draft ← Draft.empty.read lexemes
  if draft.surplus then throw .invalid
  return draft

def ofDraft (command : Command) (draft : Draft) : Except Usage Arguments :=
  match draft.mapPath with
  | some mapPath => .ok ⟨command, mapPath, draft.config, draft.verbose⟩
  | none => .error .invalid

def ofCommand (name : String) (args : List String) : Except Usage Arguments :=
  if name = "compile" then do
    let draft ← readDraft Flag.ofCompile args
    ofDraft (.compile draft.output draft.omitData) draft
  else if name = "validate" then do
    let draft ← readDraft Flag.common args
    ofDraft .validate draft
  else .error .invalid

/-- The arguments of a call. An option before the command is a mistake, but help behind it is still
given. -/
def parse : List String → Except Usage Arguments
  | [] => .error .invalid
  | s :: rest =>
    match Lexeme.ofText [.help] s with
    | .plain name => ofCommand name rest
    | .flag _ => .error .help
    | .unknown =>
      match parse rest with
      | .error .help => .error .help
      | _ => .error .invalid
    | _ => .error .invalid

end Arguments

end MapLayers
