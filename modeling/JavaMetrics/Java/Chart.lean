import JavaMetrics.Java.Gap
import JavaMetrics.Java.Phrase
import Std.Data.HashSet

/-!
# Chart parsing

The parser keeps a column for every place between two tokens. A column holds the
items that wait there for a part, so that the part, once it is complete, can be
handed to all of them. Work on a column is a list of tasks: to expect what a slot
asks for, or to announce a complete part. Each is done once, and of several ways
to read the same text the first one found is kept.

Since no part is empty, a part completed in a column began in an earlier one,
whose items are all known by then.

Comments stand where they are in the text: those in front of a part's first
token stay outside the part, those between two of its children come in between.
-/

namespace JavaMetrics.Java

/-- A rule that is being read. -/
structure Item where
  /-- The place of the rule that comes next. -/
  slot : Nat
  /-- The column in which the rule began. -/
  origin : Nat
  /-- The nodes read so far, latest first. -/
  kids : List Node

/-- A place between two tokens. -/
structure Column where
  /-- Where the token before it ends. -/
  stop : Nat
  /-- What lies between the two tokens. -/
  gap : Gap
  /-- For every part, the items that wait for it here. -/
  waiting : Array (List Item)

/-- A step of the work on a column. -/
inductive Task where
  | expect (item : Item)
  | complete (part : Symbol) (origin : Nat) (kids : List Node)

/-- The work on a column. -/
structure Progress where
  waiting : Array (List Item) := Array.replicate Symbol.count []
  /-- The items that wait for a token. -/
  scans : List (Terminal × Item) := []
  /-- The rules expected so far, as numbers. -/
  expected : Std.HashSet Nat := ∅
  /-- The parts completed so far, as numbers. -/
  completed : Std.HashSet Nat := ∅
  /-- The nodes of the whole program, latest first, when it may end here. -/
  whole : Option (List Node) := none

/-- The tasks that follow when the item's slot is filled with the nodes of a child that begins in
a column, whose gap lies between the child and what came before it. -/
def Item.advance (net : Network) (item : Item) (column : Nat) (gap : Gap) (child : List Node) :
    List Task :=
  match net.slots[item.slot]? with
  | none => []
  | some slot =>
    let child := match slot.field with
      | none => child
      | some f => child.map fun node => { node with field := some f }
    let kids := child ++ (if item.origin = column then item.kids
      else gap.comments.reverse ++ item.kids)
    let ending := if slot.final then [Task.complete slot.owner item.origin kids] else []
    slot.next.map (fun n => Task.expect ⟨n, item.origin, kids⟩) ++ ending

/-- The nodes that a complete part becomes, latest first. -/
def partNodes (net : Network) (part : Symbol) (start stop : Nat) (kids : List Node) : List Node :=
  match net.kind part with
  | none => kids
  | some kind => [{ kind, start, stop, children := kids.reverse }]

/-- Does one task, and says which ones follow from it. -/
def Progress.step (net : Network) (columns : Array Column) (stop : Nat) (progress : Progress) :
    Task → Progress × List Task
  | .expect item =>
    let key := item.origin * net.slots.size + item.slot
    if progress.expected.contains key then (progress, [])
    else
      let progress := { progress with expected := progress.expected.insert key }
      match net.slots[item.slot]? with
      | none => (progress, [])
      | some slot =>
        match slot.label with
        | .token t => ({ progress with scans := (t, item) :: progress.scans }, [])
        | .part s =>
          ({ progress with waiting := progress.waiting.modify s.index (item :: ·) },
            (net.entry s).map fun n => .expect ⟨n, columns.size, []⟩)
  | .complete part origin kids =>
    let key := origin * Symbol.count + part.index
    if progress.completed.contains key then (progress, [])
    else
      let progress := { progress with completed := progress.completed.insert key }
      match columns[origin]? with
      | none => (progress, [])
      | some column =>
        let child := partNodes net part column.gap.stop stop kids
        let progress := if part = .program then { progress with whole := some kids } else progress
        (progress, (column.waiting.getD part.index []).flatMap fun item =>
          item.advance net origin column.gap child)

/-- Works off the tasks. The first argument bounds the number of steps. -/
def Progress.run (net : Network) (columns : Array Column) (stop : Nat) :
    Nat → Progress → List Task → Progress
  | 0, progress, _ => progress
  | _, progress, [] => progress
  | steps + 1, progress, task :: tasks =>
    let (progress, more) := progress.step net columns stop task
    Progress.run net columns stop steps progress (more ++ tasks)

/-- A bound on the number of tasks of a column: every task that is not a repetition is one of an
expected slot or a completed part with one of the origins, and has followers below the number of
all slots and all waiting items. -/
def stepBound (net : Network) (columns : Array Column) : Nat :=
  let places := (net.slots.size + Symbol.count) * (columns.size + 2)
  places * places

/-- The tasks that begin a column, where it begins and the text from there on. -/
structure Arrival where
  stop : Nat
  rest : List Char
  tasks : List Task

/-- Adds an arrival to a list that is sorted by place, each place once. -/
def Arrival.insert (new : Arrival) : List Arrival → List Arrival
  | [] => [new]
  | old :: others =>
    if new.stop = old.stop then { old with tasks := old.tasks ++ new.tasks } :: others
    else if new.stop < old.stop then new :: old :: others
    else old :: Arrival.insert new others

/-- Is the word at the front of the text a keyword that is expected here? -/
def isReserved (scans : List (Terminal × Item)) (word : String) : Bool :=
  scans.any fun (t, _) => match t with
    | .word text _ => text == word
    | _ => false

/-- The scans that match the text, with the number of characters they take: the longest ones, and
also a `>` that closes a list of types. -/
def longestScans (scans : List (Terminal × Item)) (cs : List Char) : List (Terminal × Item × Nat) :=
  let word := leadingWord cs
  let reserved := isReserved scans word
  let found := scans.map fun (t, item) => (t, item, t.length word reserved cs)
  let longest := found.foldl (fun n (t, _, k) => if t = .closeAngle then n else max n k) 0
  found.filter fun (t, _, k) => 0 < k && (t = .closeAngle || k = longest)

/-- The arrivals after the next token, added to those already known. -/
def scanTokens (net : Network) (here : Nat) (gap : Gap) (scans : List (Terminal × Item))
    (arrivals : List Arrival) : List Arrival :=
  (longestScans scans gap.rest).foldl (fun arrivals (t, item, n) =>
    let stop := gap.stop + byteLength (gap.rest.take n)
    let (kind, named) := t.node
    let tasks := item.advance net here gap [{ kind, named, start := gap.stop, stop }]
    Arrival.insert ⟨stop, gap.rest.drop n, tasks⟩ arrivals) arrivals

/-- Reads the columns in the order of the text. The result is the node of the whole program, when
all of the text has been read as one. The first argument bounds the number of columns. -/
def readColumns (net : Network) : Nat → Array Column → List Arrival → Option Node
  | 0, _, _ => none
  | _, _, [] => none
  | steps + 1, columns, arrival :: arrivals =>
    let gap := Gap.read arrival.stop arrival.rest
    let progress := Progress.run net columns arrival.stop (stepBound net columns) {} arrival.tasks
    if gap.rest.isEmpty then
      match columns[0]? with
      | none =>
        some { kind := "program", start := arrival.stop, stop := gap.stop, children := gap.comments }
      | some first =>
        progress.whole.map fun kids =>
          { kind := "program", start := first.gap.stop, stop := gap.stop
            children := first.gap.comments ++ kids.reverse ++ gap.comments }
    else
      let arrivals := scanTokens net columns.size gap progress.scans arrivals
      readColumns net steps (columns.push ⟨arrival.stop, gap, progress.waiting⟩) arrivals

end JavaMetrics.Java
