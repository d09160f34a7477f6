import MapLayers.Yaml.Lexeme

/-!
# Reading settings files

The part of YAML that settings are written in: mappings and lists by indentation or in brackets, with
scalars in them. Of two entries with one key the later value stays. Keys that are no texts are never
looked up and are left out.
-/

namespace MapLayers.Yaml

/-- A key and what stands behind its colon. -/
structure KeyLine where
  key : Json
  rest : List Char

/-- The key that a line starts with, if it does. -/
def keyLine? (cs : List Char) : Option KeyLine :=
  let quoted (outcome : Result (List Char × List Char)) : Option KeyLine :=
    match outcome with
    | .ok (text, rest) =>
      match skipSpaces rest with
      | ':' :: after => if endsToken after then some ⟨.text (String.ofList text), after⟩ else none
      | _ => none
    | .error _ => none
  match cs with
  | '"' :: rest => quoted (doubleQuoted [] 0 rest)
  | '\'' :: rest => quoted (singleQuoted [] 0 rest)
  | _ =>
    if startsPlain cs then
      let (text, rest) := plainText false cs
      match skipSpaces rest with
      | ':' :: after => if endsToken after then some ⟨plainValue text, after⟩ else none
      | _ => none
    else none

def addEntry (fields : Json.Fields) (key value : Json) : Json.Fields :=
  match key with
  | .text name => Entries.set fields name value
  | _ => fields

def startsItem : List Char → Bool
  | '-' :: rest => endsToken rest
  | _ => false

mutual

def flowValue : Nat → List Char → Result (Json × List Char)
  | 0, _ => .error structureFault
  | fuel + 1, cs =>
    match cs with
    | '[' :: rest => flowItems fuel [] (skipGap 0 true rest).rest
    | '\x7b' :: rest => flowFields fuel [] (skipGap 0 true rest).rest
    | '"' :: rest => do
      let (text, rest) ← doubleQuoted [] 0 rest
      return (.text (String.ofList text), rest)
    | '\'' :: rest => do
      let (text, rest) ← singleQuoted [] 0 rest
      return (.text (String.ofList text), rest)
    | _ =>
      if startsPlain cs then
        let (text, rest) := plainScalar true 0 cs
        .ok (plainValue text, rest)
      else .error (if cs.isEmpty || cs.head?.any endsFlow then structureFault else tokenFault)

def flowItem : Nat → List Char → Result (Json × List Char)
  | 0, _ => .error structureFault
  | fuel + 1, cs => do
    let (item, rest) ← flowValue fuel cs
    match (skipGap 0 false rest).rest with
    | ':' :: rest => do
      let (value, rest) ← flowAfterColon fuel (skipGap 0 true rest).rest
      return (.object (addEntry [] item value), rest)
    | rest => return (item, rest)

def flowAfterColon : Nat → List Char → Result (Json × List Char)
  | 0, _ => .error structureFault
  | fuel + 1, cs =>
    match cs with
    | ',' :: _ | ']' :: _ | '\x7d' :: _ => .ok (.null, cs)
    | _ => flowValue fuel cs

/-- The items up to the closing bracket; `acc` holds those read, last one first. -/
def flowItems : Nat → List Json → List Char → Result (Json × List Char)
  | 0, _, _ => .error structureFault
  | fuel + 1, acc, cs =>
    match cs with
    | ']' :: rest => .ok (.list acc.reverse, rest)
    | _ => do
      let (item, rest) ← flowItem fuel cs
      match (skipGap 0 false rest).rest with
      | ',' :: rest => flowItems fuel (item :: acc) (skipGap 0 true rest).rest
      | ']' :: rest => return (.list (item :: acc).reverse, rest)
      | _ => .error structureFault

def flowFields : Nat → Json.Fields → List Char → Result (Json × List Char)
  | 0, _, _ => .error structureFault
  | fuel + 1, fields, cs =>
    match cs with
    | '\x7d' :: rest => .ok (.object fields, rest)
    | _ => do
      let (key, rest) ← flowValue fuel cs
      let (value, rest) ← match (skipGap 0 false rest).rest with
        | ':' :: rest => flowAfterColon fuel (skipGap 0 true rest).rest
        | rest => pure (.null, rest)
      let fields := addEntry fields key value
      match (skipGap 0 false rest).rest with
      | ',' :: rest => flowFields fuel fields (skipGap 0 true rest).rest
      | '\x7d' :: rest => return (.object fields, rest)
      | _ => .error structureFault

end

def closed (value : Json) (rest : List Char) : Result (Json × Cursor) :=
  if endsLine rest then .ok (value, skipGap 0 false rest)
  else
    let next := skipSpaces rest
    .error (if isColon false next || next.head? = some '\t' then tokenFault else structureFault)

def leaf (fuel least : Nat) (cs : List Char) : Result (Json × Cursor) :=
  match cs with
  | '"' :: _ | '\'' :: _ | '[' :: _ | '\x7b' :: _ => do
    let (value, rest) ← flowValue fuel cs
    closed value rest
  | _ =>
    if startsPlain cs then
      let (text, rest) := plainScalar false least cs
      closed (plainValue text) rest
    else .error tokenFault

mutual

def block : Nat → Nat → Cursor → Result (Json × Cursor)
  | 0, _, _ => .error structureFault
  | fuel + 1, least, cursor =>
    if cursor.rest.isEmpty || cursor.column < least then .ok (.null, cursor)
    else if startsItem cursor.rest then blockItems fuel cursor.column [] cursor
    else if (keyLine? cursor.rest).isSome then blockFields fuel cursor.column [] cursor
    else leaf fuel least cursor.rest

def blockItems : Nat → Nat → List Json → Cursor → Result (Json × Cursor)
  | 0, _, _, _ => .error structureFault
  | fuel + 1, column, acc, cursor =>
    if cursor.rest.isEmpty || cursor.column < column then .ok (.list acc.reverse, cursor)
    else if column < cursor.column then .error structureFault
    else if !startsItem cursor.rest then .ok (.list acc.reverse, cursor)
    else do
      let next := skipGap (column + 1) true (cursor.rest.drop 1)
      let (item, next) ← block fuel (column + 1) next
      blockItems fuel column (item :: acc) next

/-- The entries of a mapping whose keys stand in a column. -/
def blockFields : Nat → Nat → Json.Fields → Cursor → Result (Json × Cursor)
  | 0, _, _, _ => .error structureFault
  | fuel + 1, column, fields, cursor =>
    if cursor.rest.isEmpty || cursor.column < column then .ok (.object fields, cursor)
    else if column < cursor.column then .error structureFault
    else
      match keyLine? cursor.rest with
      | none => .error (if startsItem cursor.rest then structureFault else tokenFault)
      | some line => do
        let (value, next) ←
          if endsLine line.rest then
            let next := skipGap 0 true line.rest
            let least := if startsItem next.rest then column else column + 1
            block fuel least next
          else if startsItem (skipSpaces line.rest) then .error tokenFault
          else leaf fuel (column + 1) (skipSpaces line.rest)
        blockFields fuel column (addEntry fields line.key value) next

end

def startsMark (mark : String) (cs : List Char) : Bool :=
  mark.toList.isPrefixOf cs && endsToken (cs.drop 3)

/-- The start of a document behind its mark, which may be left out, and whether it stands on the line of
the mark, where no mapping or list by indentation can start. -/
def afterMark (cursor : Cursor) : Cursor × Bool :=
  if cursor.column = 0 && startsMark "---" cursor.rest then
    let rest := cursor.rest.drop 3
    (skipGap 3 true rest, !endsLine rest)
  else (cursor, false)

/-- The lines of a document and what follows them: another document, or the mark of its end. -/
def document (atStart : Bool) : List Char → List Char × List Char
  | [] => ([], [])
  | c :: rest =>
    if atStart && (startsMark "---" (c :: rest) || startsMark "..." (c :: rest)) then ([], c :: rest)
    else
      let (lines, others) := document (isBreak c) rest
      (c :: lines, others)

def checkEnd (others : List Char) : Result Unit :=
  if others.isEmpty then .ok ()
  else if startsMark "---" others then .error documentsFault
  else
    match (skipGap 3 true (others.drop 3)).rest with
    | [] => .ok ()
    | rest => .error (if startsMark "---" rest then documentsFault else structureFault)

def withoutByteOrderMark : List Char → List Char
  | '\ufeff' :: rest => rest
  | cs => cs

/-- The value that a settings file holds, null if it is empty. Every nested value starts at a later
character, so the length of the text bounds the depth of the reading. -/
def read (s : String) : Result Json := do
  let (start, inline) := afterMark (skipGap 0 true (withoutByteOrderMark (plainBreaks s.toList)))
  let (lines, others) := document (start.column = 0) start.rest
  let depth := 2 * lines.length + 2
  let (value, next) ← if inline then leaf depth 0 lines else block depth 0 ⟨start.column, lines⟩
  if !next.rest.isEmpty then throw structureFault
  checkEnd others
  return value

end MapLayers.Yaml
