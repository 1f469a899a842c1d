import ClusterMesh.Config.Setting
import ClusterMesh.Number.DecimalText

/-!
# Keys and values of TOML documents

Keys, bare or quoted and perhaps dotted, and the values behind them: strings in four
spellings, numbers, truth values, dates and times, arrays and inline tables. Dates and times
are kept as texts.
-/

namespace ClusterMesh.Toml

def skipBlanks (cs : List Char) : List Char := cs.dropWhile (fun c => c == ' ' || c == '\t')

def isControl (c : Char) : Bool := (c.toNat < 0x20 && c != '\t') || c.toNat == 0x7f

def lineEnd? : List Char → Option (List Char)
  | '\n' :: rest => some rest
  | '\r' :: '\n' :: rest => some rest
  | _ => none

/-- What follows a comment and the blanks in front of it; control characters are refused. -/
def skipComment? (cs : List Char) : Option (List Char) :=
  match skipBlanks cs with
  | '#' :: rest =>
    let after := rest.dropWhile (fun c => !isControl c)
    match after with
    | [] => some []
    | c :: _ => if c = '\n' ∨ c = '\r' then some after else none
  | rest => some rest

def skipLines? : Nat → List Char → Option (List Char)
  | 0, cs => some cs
  | fuel + 1, cs =>
    match skipComment? cs with
    | none => none
    | some rest =>
      match lineEnd? rest with
      | some rest => skipLines? fuel rest
      | none => some rest

def escape? : List Char → Option (Char × List Char)
  | 'b' :: rest => some ('\x08', rest)
  | 't' :: rest => some ('\t', rest)
  | 'n' :: rest => some ('\n', rest)
  | 'f' :: rest => some ('\x0c', rest)
  | 'r' :: rest => some ('\r', rest)
  | '"' :: rest => some ('"', rest)
  | '\\' :: rest => some ('\\', rest)
  | 'u' :: rest => Digits.charOfHex? 4 rest
  | 'U' :: rest => Digits.charOfHex? 8 rest
  | _ => none

/-- A string on one line behind its quote; escapes count unless it is literal. -/
def lineString? (quote : Char) (literal : Bool) :
    Nat → List Char → List Char → Option (String × List Char)
  | 0, _, _ => none
  | _, _, [] => none
  | fuel + 1, read, c :: rest =>
    if c = quote then some (String.ofList read.reverse, rest)
    else if c = '\\' && !literal then
      match escape? rest with
      | some (e, rest) => lineString? quote literal fuel (e :: read) rest
      | none => none
    else if isControl c then none
    else lineString? quote literal fuel (c :: read) rest

/-- What follows a backslash at the end of a line: all blanks and line ends are skipped. -/
def skipContinuation? (cs : List Char) : Option (List Char) :=
  let rest := skipBlanks cs
  if (lineEnd? rest).isSome then
    some (rest.dropWhile (fun c => c == ' ' || c == '\t' || c == '\n' || c == '\r'))
  else none

/-- A string over several lines behind its three quotes. One or two quotes in front of the
closing three belong to it. -/
def blockString? (quote : Char) (literal : Bool) :
    Nat → List Char → List Char → Option (String × List Char)
  | 0, _, _ => none
  | _, _, [] => none
  | fuel + 1, read, c :: rest =>
    if c = quote && rest.take 2 == [quote, quote] then
      let more := ((rest.drop 2).takeWhile (· == quote)).take 2
      some (String.ofList (read.reverse ++ more), rest.drop (2 + more.length))
    else if c = '\\' && !literal then
      match skipContinuation? rest with
      | some rest => blockString? quote literal fuel read rest
      | none =>
        match escape? rest with
        | some (e, rest) => blockString? quote literal fuel (e :: read) rest
        | none => none
    else
      match lineEnd? (c :: rest) with
      | some rest => blockString? quote literal fuel ('\n' :: read) rest
      | none =>
        if isControl c then none else blockString? quote literal fuel (c :: read) rest

def afterOpening (cs : List Char) : List Char := (lineEnd? cs).getD cs

def string? (cs : List Char) : Option (String × List Char) :=
  match cs with
  | '"' :: '"' :: '"' :: rest =>
    blockString? '"' false (rest.length + 1) [] (afterOpening rest)
  | '\'' :: '\'' :: '\'' :: rest =>
    blockString? '\'' true (rest.length + 1) [] (afterOpening rest)
  | '"' :: rest => lineString? '"' false (rest.length + 1) [] rest
  | '\'' :: rest => lineString? '\'' true (rest.length + 1) [] rest
  | _ => none

def isBareKeyChar (c : Char) : Bool := c.isAlphanum || c == '_' || c == '-'

def keyPart? (cs : List Char) : Option (String × List Char) :=
  match cs with
  | '"' :: rest => lineString? '"' false (rest.length + 1) [] rest
  | '\'' :: rest => lineString? '\'' true (rest.length + 1) [] rest
  | _ =>
    let bare := cs.takeWhile isBareKeyChar
    if bare.isEmpty then none else some (String.ofList bare, cs.drop bare.length)

def key? : Nat → List Char → Option (List String × List Char)
  | 0, _ => none
  | fuel + 1, cs =>
    match keyPart? (skipBlanks cs) with
    | none => none
    | some (part, rest) =>
      match skipBlanks rest with
      | '.' :: rest => (key? fuel rest).map (fun r => (part :: r.1, r.2))
      | rest => some ([part], rest)

/-! ### Numbers -/

/-- Digits without the underscores between them; each underscore stands between two digits. -/
def groupedDigits? (isDigit : Char → Bool) : List Char → Option (List Char)
  | [] => none
  | [d] => if isDigit d then some [d] else none
  | d :: '_' :: rest => if isDigit d then (groupedDigits? isDigit rest).map (d :: ·) else none
  | d :: rest => if isDigit d then (groupedDigits? isDigit rest).map (d :: ·) else none

/-- The number of digits in a base of at most sixteen. -/
def basedInteger? (base : Nat) (cs : List Char) : Option Setting := do
  let isDigit := fun c => (Digits.hex? c).any (fun d => decide (d < base))
  let ds ← groupedDigits? isDigit cs
  let n ← Digits.valueIn? base ds
  if n < Nat.pow 2 63 then some (.int n) else none

def decimalDigits? (cs : List Char) : Option (List Char) := do
  let ds ← groupedDigits? Char.isDigit cs
  if ds.length != 1 && ds.head? == some '0' then none else some ds

def exponentValue? (cs : List Char) : Option Int := do
  let (negative, ds) := DecimalText.sign cs
  let ds ← groupedDigits? Char.isDigit ds
  some (Digits.signedValue negative ds)

/-- A decimal number behind its sign: an integer unless there is a point or an exponent. -/
def decimalNumber? (negative : Bool) (cs : List Char) : Option Setting := do
  let isExponentMark := fun c : Char => c == 'e' || c == 'E'
  let (front, exponent) := cs.span (fun c => !isExponentMark c)
  let (whole, part) := front.span (· != '.')
  let ds ← decimalDigits? whole
  if part.isEmpty && exponent.isEmpty then
    let i := Digits.signedValue negative ds
    if DecimalText.inSignedRange i then some (.int i) else none
  else
    let ps ← if part.isEmpty then some [] else groupedDigits? Char.isDigit (part.drop 1)
    let e ← if exponent.isEmpty then some 0 else exponentValue? (exponent.drop 1)
    let x := Binary64.ofDecimal negative (Digits.value (ds ++ ps)) (e - ps.length)
    if x.isInfinite then none else some (.float x)

def number? (token : List Char) : Option Setting :=
  match token with
  | '0' :: 'x' :: rest => basedInteger? 16 rest
  | '0' :: 'o' :: rest => basedInteger? 8 rest
  | '0' :: 'b' :: rest => basedInteger? 2 rest
  | _ =>
    let (negative, rest) := DecimalText.sign token
    if rest = "inf".toList then some (.float (Binary64.infinity negative))
    else if rest = "nan".toList then some (.float Binary64.nan)
    else decimalNumber? negative rest

/-! ### Dates and times -/

/-- The number of exactly `count` digits, and what follows. -/
def fixedDigits? (count : Nat) (cs : List Char) : Option (Nat × List Char) :=
  let ds := cs.take count
  if ds.length = count && ds.all Char.isDigit then some (Digits.value ds, cs.drop count)
  else none

def afterMark? (c : Char) : List Char → Option (List Char)
  | d :: rest => if d = c then some rest else none
  | [] => none

/-- A date: its text and what follows. -/
def date? (cs : List Char) : Option (List Char × List Char) := do
  let (year, rest) ← fixedDigits? 4 cs
  let (month, rest) ← (afterMark? '-' rest).bind (fixedDigits? 2)
  let (day, rest) ← (afterMark? '-' rest).bind (fixedDigits? 2)
  let leap := year % 4 == 0 && (year % 100 != 0 || year % 400 == 0)
  let days :=
    if month = 2 then if leap then 29 else 28
    else if month = 4 ∨ month = 6 ∨ month = 9 ∨ month = 11 then 30
    else 31
  if 1 ≤ month ∧ month ≤ 12 ∧ 1 ≤ day ∧ day ≤ days then some (cs.take 10, rest) else none

/-- The digits behind a second: at most nine of them, without zeros at the end. -/
def fractionText (ds : List Char) : List Char :=
  let kept := ((ds.take 9).reverse.dropWhile (· == '0')).reverse
  if kept.isEmpty then [] else '.' :: kept

/-- A time of day: its text and what follows. -/
def time? (cs : List Char) : Option (List Char × List Char) := do
  let (hour, rest) ← fixedDigits? 2 cs
  let (minute, rest) ← (afterMark? ':' rest).bind (fixedDigits? 2)
  let (second, rest) ← (afterMark? ':' rest).bind (fixedDigits? 2)
  if 23 < hour ∨ 59 < minute ∨ 60 < second then none
  else
    match rest with
    | '.' :: rest =>
      let ds := rest.takeWhile Char.isDigit
      if ds.isEmpty then none else some (cs.take 8 ++ fractionText ds, rest.drop ds.length)
    | _ => some (cs.take 8, rest)

/-- An offset that may be left out, as its text; nothing may follow. -/
def offsetText? (cs : List Char) : Option (List Char) :=
  match cs with
  | [] => some []
  | ['Z'] | ['z'] => some ['Z']
  | c :: rest =>
    if c = '+' ∨ c = '-' then do
      let (hours, rest') ← fixedDigits? 2 rest
      let (minutes, rest') ← (afterMark? ':' rest').bind (fixedDigits? 2)
      if rest'.isEmpty && hours ≤ 24 && minutes ≤ 59 then some (c :: rest) else none
    else none

def dateTime? (token : List Char) : Option String :=
  match date? token with
  | some (date, []) => some (String.ofList date)
  | some (date, c :: rest) =>
    if c = 'T' ∨ c = 't' ∨ c = ' ' then do
      let (time, rest) ← time? rest
      let offset ← offsetText? rest
      some (String.ofList (date ++ 'T' :: time ++ offset))
    else none
  | none =>
    match time? token with
    | some (time, []) => some (String.ofList time)
    | _ => none

def isTokenChar (c : Char) : Bool :=
  c.isAlphanum || c == '_' || c == '-' || c == '+' || c == '.' || c == ':'

/-- A token; a date and a time may have a blank between them. -/
def token (cs : List Char) : List Char × List Char :=
  let first := cs.takeWhile isTokenChar
  let rest := cs.drop first.length
  match rest with
  | ' ' :: d :: more =>
    if first.length = 10 && (date? first).isSome && d.isDigit then
      let second := (d :: more).takeWhile isTokenChar
      (first ++ ' ' :: second, (d :: more).drop second.length)
    else (first, rest)
  | _ => (first, rest)

def tokenValue? (t : List Char) : Option Setting :=
  if t = "true".toList then some (.bool true)
  else if t = "false".toList then some (.bool false)
  else
    match dateTime? t with
    | some s => some (.text s)
    | none => number? t

/-! ### Arrays and inline tables -/

/-- Put a value under a dotted key of an inline table. The tables on the way were made by dotted
keys of the same inline table; nothing is written twice. -/
def putInline (entries : List (String × Setting)) (dotted : List String) :
    List String → Setting → Option (List (String × Setting) × List String)
  | [], _ => none
  | [name], value =>
    if (entries.lookup name).isSome then none else some (entries ++ [(name, value)], dotted)
  | name :: names, value =>
    match entries.lookup name with
    | none => do
      let (below, _) ← putInline [] [] names value
      some (entries ++ [(name, .table below)], name :: dotted)
    | some (.table below) =>
      if name ∈ dotted then do
        let (below, _) ← putInline below (below.map Prod.fst) names value
        some (Setting.writeEntry name (.table below) entries, dotted)
      else none
    | some _ => none

mutual

/-- A value, and what follows it; `depth` more levels may be opened. -/
def value? (fuel depth : Nat) (cs : List Char) : Option (Setting × List Char) :=
  match fuel, depth, cs with
  | 0, _, _ => none
  | _, _, '"' :: _ => (string? cs).map (fun r => (.text r.1, r.2))
  | _, _, '\'' :: _ => (string? cs).map (fun r => (.text r.1, r.2))
  | fuel + 1, depth + 1, '[' :: rest => (items? fuel depth rest).map (fun r => (.list r.1, r.2))
  | fuel + 1, depth + 1, '{' :: rest =>
    match skipBlanks rest with
    | '}' :: rest => some (.table [], rest)
    | rest => (fields? fuel depth [] [] rest).map (fun r => (.table r.1, r.2))
  | _, _, _ =>
    let (t, rest) := token cs
    (tokenValue? t).map (fun v => (v, rest))

/-- The items of an array up to its closing bracket; the last may have a comma behind it. -/
def items? (fuel depth : Nat) (cs : List Char) : Option (List Setting × List Char) :=
  match fuel with
  | 0 => none
  | fuel + 1 =>
    match skipLines? (cs.length + 1) cs with
    | none => none
    | some (']' :: rest) => some ([], rest)
    | some cs =>
      match value? fuel depth cs with
      | none => none
      | some (item, rest) =>
        match skipLines? (rest.length + 1) rest with
        | some (',' :: rest) => (items? fuel depth rest).map (fun r => (item :: r.1, r.2))
        | some (']' :: rest) => some ([item], rest)
        | _ => none

def fields? (fuel depth : Nat) (entries : List (String × Setting)) (dotted : List String)
    (cs : List Char) : Option (List (String × Setting) × List Char) :=
  match fuel with
  | 0 => none
  | fuel + 1 =>
    match key? (cs.length + 1) cs with
    | some (names, '=' :: rest) =>
      match value? fuel depth (skipBlanks rest) with
      | none => none
      | some (value, rest) =>
        match putInline entries dotted names value with
        | none => none
        | some (entries, dotted) =>
          match skipBlanks rest with
          | ',' :: rest => fields? fuel depth entries dotted rest
          | '}' :: rest => some (entries, rest)
          | _ => none
    | _ => none

end

end ClusterMesh.Toml
