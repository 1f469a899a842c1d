import ClusterMesh.Config.Setting
import ClusterMesh.Number.DecimalText

/-!
# YAML values in one line

Scalars, plain or in quotes, and the flow forms of lists and tables. A plain scalar is null, a
truth value, a number or a text by its look; one in quotes is always a text.
-/

namespace ClusterMesh.Yaml

def isGap (c : Char) : Bool := c == ' ' || c == '\t'

def skipGaps (cs : List Char) : List Char := cs.dropWhile isGap

def dropGapsAtEnd (cs : List Char) : List Char := (cs.reverse.dropWhile isGap).reverse

def based? (base : Nat) (cs : List Char) : Option Int := do
  let (negative, ds) := DecimalText.sign cs
  if ds.isEmpty then none
  else
    let n ← Digits.valueIn? base ds
    let i : Int := if negative then -(n : Int) else n
    if DecimalText.inSignedRange i then some i else none

/-- A whole number with or without a sign, or in base sixteen or eight behind `0x` or `0o`. -/
def integer? (cs : List Char) : Option Int :=
  let marked :=
    match cs with
    | '0' :: 'x' :: ds => based? 16 ds
    | '0' :: 'o' :: ds => based? 8 ds
    | '+' :: ds => DecimalText.integer? ds
    | _ => none
  marked <|> DecimalText.integer? cs

def isUnboundedNumber (s : String) : Bool :=
  [".inf", ".Inf", ".INF", "+.inf", "+.Inf", "+.INF", "-.inf", "-.Inf", "-.INF", ".nan",
    ".NAN"].contains s

/-- The value of a plain scalar. Numbers that no digits denote are not supported. -/
def plain? (cs : List Char) : Option Setting :=
  let s := String.ofList cs
  match integer? cs with
  | some i => some (.int i)
  | none =>
    if s = "" ∨ s = "~" ∨ s = "null" then some .null
    else if s = "true" then some (.bool true)
    else if s = "false" then some (.bool false)
    else if isUnboundedNumber s then none
    else
      match DecimalText.float? cs with
      | some x => some (.float x)
      | none => some (.text s)

/-- The text of single quotes up to the closing one, in which a quote is written twice, and what
follows. -/
def singleQuoted? (read : List Char) : List Char → Option (List Char × List Char)
  | '\'' :: '\'' :: rest => singleQuoted? ('\'' :: read) rest
  | '\'' :: rest => some (read.reverse, rest)
  | c :: rest => singleQuoted? (c :: read) rest
  | [] => none

def simpleEscapes : List (Char × Char) :=
  [('0', '\x00'), ('a', '\x07'), ('b', '\x08'), ('t', '\t'), ('\t', '\t'), ('n', '\n'),
    ('v', '\x0b'), ('f', '\x0c'), ('r', '\r'), ('e', '\x1b'), (' ', ' '), ('"', '"'),
    ('\'', '\''), ('\\', '\\'), ('N', '\u0085'), ('_', '\u00a0'), ('L', '\u2028'),
    ('P', '\u2029')]

def escape? : List Char → Option (Char × List Char)
  | 'x' :: rest => Digits.charOfHex? 2 rest
  | 'u' :: rest => Digits.charOfHex? 4 rest
  | 'U' :: rest => Digits.charOfHex? 8 rest
  | c :: rest => (simpleEscapes.lookup c).map (fun e => (e, rest))
  | [] => none

def doubleQuoted? : Nat → List Char → List Char → Option (List Char × List Char)
  | 0, _, _ => none
  | _, read, '"' :: rest => some (read.reverse, rest)
  | fuel + 1, read, '\\' :: rest =>
    match escape? rest with
    | some (c, rest) => doubleQuoted? fuel (c :: read) rest
    | none => none
  | fuel + 1, read, c :: rest => doubleQuoted? fuel (c :: read) rest
  | _, _, [] => none

def quoted? : List Char → Option (String × List Char)
  | '"' :: rest =>
    (doubleQuoted? (rest.length + 1) [] rest).map (fun r => (String.ofList r.1, r.2))
  | '\'' :: rest => (singleQuoted? [] rest).map (fun r => (String.ofList r.1, r.2))
  | _ => none

def isIndicator (c : Char) : Bool := "&*!|>%@,[]\x7b\x7d#\"'\x60".toList.contains c

def beginsPlain : List Char → Bool
  | [] => false
  | [c] => !isIndicator c && c != '-' && c != '?' && c != ':'
  | c :: d :: _ => !isIndicator c && !((c == '-' || c == '?' || c == ':') && isGap d)

/-- The characters of a plain scalar up to a comment, to a colon that ends a key and, within
brackets, to one of their marks; and what follows. -/
def plainChars (inFlow : Bool) (read : List Char) : List Char → List Char × List Char
  | [] => (dropGapsAtEnd read.reverse, [])
  | c :: rest =>
    let endsKey := c == ':' && (match rest with
      | [] => true
      | d :: _ => isGap d || (inFlow && ",[]\x7b\x7d".toList.contains d))
    let startsComment := c == '#' && read.head?.any isGap
    let endsItem := inFlow && ",[]\x7b\x7d".toList.contains c
    if endsKey || startsComment || endsItem then (dropGapsAtEnd read.reverse, c :: rest)
    else plainChars inFlow (c :: read) rest

def atLineEnd (cs : List Char) : Bool :=
  match skipGaps cs with
  | [] => true
  | c :: _ => c == '#'

def entryName? : Setting → Option String
  | .text s => some s
  | .int i => some (toString i)
  | _ => none

def flowKey? (cs : List Char) : Option (String × List Char) :=
  match quoted? cs with
  | some (s, rest) => some (s, skipGaps rest)
  | none =>
    if beginsPlain cs then do
      let (ks, rest) := plainChars true [] cs
      some (← entryName? (← plain? ks), skipGaps rest)
    else none

mutual

def flowValue? (fuel : Nat) (cs : List Char) : Option (Setting × List Char) :=
  match fuel with
  | 0 => none
  | fuel + 1 =>
    match cs with
    | '[' :: rest => (flowItems? fuel (skipGaps rest)).map (fun r => (.list r.1, r.2))
    | '\x7b' :: rest => (flowEntries? fuel [] (skipGaps rest)).map (fun r => (.table r.1, r.2))
    | _ =>
      match quoted? cs with
      | some (s, rest) => some (.text s, skipGaps rest)
      | none =>
        if beginsPlain cs then do
          let (vs, rest) := plainChars true [] cs
          some (← plain? vs, skipGaps rest)
        else none

def flowItems? (fuel : Nat) (cs : List Char) : Option (List Setting × List Char) :=
  match fuel, cs with
  | 0, _ => none
  | _, ']' :: rest => some ([], skipGaps rest)
  | fuel + 1, cs =>
    match flowValue? fuel cs with
    | some (v, ',' :: rest) => (flowItems? fuel (skipGaps rest)).map (fun r => (v :: r.1, r.2))
    | some (v, ']' :: rest) => some ([v], skipGaps rest)
    | _ => none

/-- The entries of a table, up to the closing bracket. An entry without a value is null. -/
def flowEntries? (fuel : Nat) (entries : List (String × Setting)) (cs : List Char) :
    Option (List (String × Setting) × List Char) :=
  match fuel, cs with
  | 0, _ => none
  | _, '\x7d' :: rest => some (entries, skipGaps rest)
  | fuel + 1, cs =>
    match flowKey? cs with
    | none => none
    | some (key, rest) =>
      let entry :=
        match rest with
        | ':' :: rest =>
          match skipGaps rest with
          | ',' :: rest => some (.null, ',' :: rest)
          | '\x7d' :: rest => some (.null, '\x7d' :: rest)
          | rest => flowValue? fuel rest
        | rest => some (.null, rest)
      match entry with
      | some (v, ',' :: rest) =>
        flowEntries? fuel (Setting.writeEntry key v entries) (skipGaps rest)
      | some (v, '\x7d' :: rest) => some (Setting.writeEntry key v entries, skipGaps rest)
      | _ => none

end

end ClusterMesh.Yaml
