import ClusterMesh.Config.Toml.Value

/-!
# TOML documents

A document is read line by line into a tree of tables. A table is defined once: by its header,
by dotted keys, or, as long as only headers below it were seen, implicitly; nothing is
written twice. `Toml.parse` gives the tree, or nothing for a faulty document.
-/

namespace ClusterMesh.Toml

inductive Item
  | value (v : Setting)
  | table (isImplicit isDotted : Bool) (entries : List (String × Item))
  | tables (elements : List (List (String × Item)))
deriving Inhabited

namespace Item

mutual

def setting : Item → Setting
  | value v => v
  | table _ _ entries => .table (settings entries)
  | tables elements => .list (settingLists elements)

def settings : List (String × Item) → List (String × Setting)
  | [] => []
  | (name, item) :: entries => (name, setting item) :: settings entries

def settingLists : List (List (String × Item)) → List Setting
  | [] => []
  | entries :: elements => .table (settings entries) :: settingLists elements

end

/-- Write an item in the place of the one of its name, or at the end. -/
def write (name : String) (item : Item) : List (String × Item) → List (String × Item)
  | [] => [(name, item)]
  | (k, v) :: entries =>
    if k = name then (k, item) :: entries else (k, v) :: write name item entries

end Item

structure Body where
  isDotted : Bool
  entries : List (String × Item)

/-- Change the table at the end of a path. Tables that are not there yet are made, and a list of
tables stands for its last one. Dotted keys lead only through tables without a header. -/
def changeAt (dotted : Bool) (change : Body → Option Body) :
    List String → Body → Option Body
  | [], body => change body
  | name :: names, body =>
    match body.entries.lookup name with
    | none => do
      let below ← changeAt dotted change names ⟨dotted, []⟩
      some { body with entries := body.entries ++ [(name, .table true below.isDotted below.entries)] }
    | some (.value _) => none
    | some (.tables elements) => do
      let below ← changeAt dotted change names ⟨false, elements.getLastD []⟩
      some { body with
        entries := Item.write name (.tables (elements.dropLast ++ [below.entries])) body.entries }
    | some (.table isImplicit isDotted entries) =>
      if dotted && !isImplicit then none
      else do
        let below ← changeAt dotted change names ⟨isDotted, entries⟩
        some { body with
          entries := Item.write name (.table isImplicit below.isDotted below.entries) body.entries }

def putValue (path : List String) (value : Setting) (body : Body) : Option Body :=
  let tables := path.dropLast
  changeAt true (fun b =>
    let name := path.getLastD ""
    if (!tables.isEmpty && !b.isDotted) || (b.entries.lookup name).isSome then none
    else some { b with entries := b.entries ++ [(name, .value value)] }) tables body

/-- Open the table of a header: a new one, or one that was there only implicitly. -/
def openTable (path : List String) (body : Body) : Option Body :=
  changeAt false (fun b =>
    let name := path.getLastD ""
    match b.entries.lookup name with
    | none => some { b with entries := b.entries ++ [(name, .table false false [])] }
    | some (.table true false entries) =>
      some { b with entries := Item.write name (.table false false entries) b.entries }
    | _ => none) path.dropLast body

def openElement (path : List String) (body : Body) : Option Body :=
  changeAt false (fun b =>
    let name := path.getLastD ""
    match b.entries.lookup name with
    | none => some { b with entries := b.entries ++ [(name, .tables [[]])] }
    | some (.tables elements) =>
      some { b with entries := Item.write name (.tables (elements ++ [[]])) b.entries }
    | _ => none) path.dropLast body

def header? (brackets : Nat) (cs : List Char) : Option (List String × List Char) :=
  match key? (cs.length + 1) cs with
  | some (path, rest) =>
    if rest.take brackets == List.replicate brackets ']' then some (path, rest.drop brackets)
    else none
  | none => none

/-- What a line does: it opens a table, another table of a list, or writes a value. -/
inductive Line
  | table (path : List String)
  | element (path : List String)
  | value (path : List String) (value : Setting)

def line? (cs : List Char) : Option (Line × List Char) :=
  match cs with
  | '[' :: '[' :: rest => (header? 2 rest).map (fun r => (.element r.1, r.2))
  | '[' :: rest => (header? 1 rest).map (fun r => (.table r.1, r.2))
  | _ =>
    match key? (cs.length + 1) cs with
    | some (path, '=' :: rest) =>
      (value? (2 * rest.length + 2) 80 (skipBlanks rest)).map (fun r => (.value path r.1, r.2))
    | _ => none

/-- Follow the lines from a table on; `here` is the path of the table that is open. -/
def readLines : Nat → List String → Body → List Char → Option Body
  | 0, _, _, _ => none
  | fuel + 1, here, body, cs =>
    match skipLines? (cs.length + 1) cs with
    | none => none
    | some [] => some body
    | some cs =>
      match line? cs with
      | none => none
      | some (line, rest) =>
        match skipComment? rest with
        | none => none
        | some rest =>
          if !rest.isEmpty && (lineEnd? rest).isNone then none
          else
            match line with
            | .table path =>
              match openTable path body with
              | some body => readLines fuel path body rest
              | none => none
            | .element path =>
              match openElement path body with
              | some body => readLines fuel path body rest
              | none => none
            | .value path value =>
              match changeAt false (putValue path value) here body with
              | some body => readLines fuel here body rest
              | none => none

def parse (s : String) : Option (List (String × Setting)) :=
  let cs :=
    match s.toList with
    | '\ufeff' :: rest => rest
    | cs => cs
  (readLines (cs.length + 1) [] ⟨false, []⟩ cs).map (fun b => Item.settings b.entries)

end ClusterMesh.Toml
