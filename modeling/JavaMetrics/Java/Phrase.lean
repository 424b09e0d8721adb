import JavaMetrics.Java.Symbol
import JavaMetrics.Java.Terminal
import JavaMetrics.Syntax.Node

/-!
# Phrases and their positions

The right-hand side of a grammar rule is a `Phrase`, a regular expression over
tokens and parts. For the parser it is taken apart into its positions: every
occurrence of a token or a part is a `Slot`, which knows the slots that may come
next and whether the phrase may end after it. A `Network` holds the slots of all
the rules of a grammar in one array.
-/

namespace JavaMetrics.Java

/-- What stands at one place of a rule. -/
inductive Label where
  | token (t : Terminal)
  | part (s : Symbol)
deriving DecidableEq, Repr

/-- The right-hand side of a rule. -/
inductive Phrase where
  | empty
  | single (label : Label) (field : Option Field)
  | seq (first second : Phrase)
  | alt (first second : Phrase)
  | plus (repeated : Phrase)
deriving Repr

namespace Phrase

/-- A keyword. -/
def word (text : String) : Phrase :=
  .single (.token (.word text none)) none

/-- A keyword that becomes a named node. -/
def namedWord (text kind : String) : Phrase :=
  .single (.token (.word text (some kind))) none

/-- An operator or a separator. -/
def mark (text : String) : Phrase :=
  .single (.token (.mark text none)) none

/-- An identifier as a node of the given kind. -/
def identifier (kind : String) : Phrase :=
  .single (.token (.identifier kind)) none

/-- Another part of the program. -/
def the (s : Symbol) : Phrase :=
  .single (.part s) none

/-- The phrases one after the other. -/
def all : List Phrase → Phrase
  | [] => .empty
  | [p] => p
  | p :: ps => .seq p (all ps)

/-- One of the phrases. -/
def oneOf : List Phrase → Phrase
  | [] => .empty
  | [p] => p
  | p :: ps => .alt p (oneOf ps)

/-- The phrase or nothing. -/
def opt (p : Phrase) : Phrase :=
  .alt p .empty

/-- The phrase any number of times. -/
def many (p : Phrase) : Phrase :=
  opt (.plus p)

/-- The phrase at least once, with a separator between two of them. -/
def sepBy1 (sep : String) (p : Phrase) : Phrase :=
  .seq p (many (.seq (mark sep) p))

/-- The phrase any number of times, with a separator between two of them. -/
def sepBy (sep : String) (p : Phrase) : Phrase :=
  opt (sepBy1 sep p)

/-- The phrase between braces. -/
def braces (p : Phrase) : Phrase :=
  all [mark "\x7b", p, mark "\x7d"]

/-- Gives the role `f` to everything in the phrase. -/
def withField (f : Field) : Phrase → Phrase
  | .empty => .empty
  | .single label _ => .single label (some f)
  | .seq p q => .seq (p.withField f) (q.withField f)
  | .alt p q => .alt (p.withField f) (q.withField f)
  | .plus p => .plus (p.withField f)

/-- The number of places in a phrase. -/
def size : Phrase → Nat
  | .empty => 0
  | .single _ _ => 1
  | .seq p q => p.size + q.size
  | .alt p q => p.size + q.size
  | .plus p => p.size

/-- Can the phrase be left out altogether? -/
def nullable : Phrase → Bool
  | .empty => true
  | .single _ _ => false
  | .seq p q => p.nullable && q.nullable
  | .alt p q => p.nullable || q.nullable
  | .plus p => p.nullable

/-- The places at which the phrase may begin, when its own are numbered from `base`. -/
def first (base : Nat) : Phrase → List Nat
  | .empty => []
  | .single _ _ => [base]
  | .seq p q => p.first base ++ (if p.nullable then q.first (base + p.size) else [])
  | .alt p q => p.first base ++ q.first (base + p.size)
  | .plus p => p.first base

end Phrase

/-- A place in a rule. -/
structure Slot where
  /-- The part whose rule this is. -/
  owner : Symbol
  label : Label
  field : Option Field
  /-- The places that may come after this one. -/
  next : List Nat
  /-- May the rule end after this place? -/
  final : Bool
deriving Repr

/-- The places of a phrase, numbered from `base`. `next` are the places after the phrase, and
`final` says whether the rule may end after it. -/
def Phrase.slots (owner : Symbol) (base : Nat) (next : List Nat) (final : Bool) :
    Phrase → List Slot
  | .empty => []
  | .single label field => [⟨owner, label, field, next, final⟩]
  | .seq p q =>
    let between := base + p.size
    p.slots owner base (q.first between ++ (if q.nullable then next else [])) (q.nullable && final) ++
      q.slots owner between next final
  | .alt p q => p.slots owner base next final ++ q.slots owner (base + p.size) next final
  | .plus p => p.slots owner base (p.first base ++ next).eraseDups final

/-- The rule of one part. -/
structure Rule where
  part : Symbol
  /-- The kind of its node; without one, the nodes of the phrase take the place of the part. -/
  kind : Option String
  phrase : Phrase

/-- All the rules of a grammar, taken apart. -/
structure Network where
  slots : Array Slot := #[]
  /-- The places at which each part may begin. -/
  entries : Array (List Nat) := Array.replicate Symbol.count []
  /-- The kind of node that each part becomes. -/
  kinds : Array (Option String) := Array.replicate Symbol.count none

namespace Network

/-- The network with one more rule. -/
def add (net : Network) (rule : Rule) : Network :=
  let base := net.slots.size
  { slots := net.slots ++ (rule.phrase.slots rule.part base [] true).toArray
    entries := net.entries.setIfInBounds rule.part.index (rule.phrase.first base)
    kinds := net.kinds.setIfInBounds rule.part.index rule.kind }

/-- The network of a grammar. -/
def ofRules (rules : List Rule) : Network :=
  rules.foldl add {}

/-- The places at which a part may begin. -/
def entry (net : Network) (s : Symbol) : List Nat :=
  net.entries.getD s.index []

/-- The kind of node that a part becomes, if any. -/
def kind (net : Network) (s : Symbol) : Option String :=
  net.kinds.getD s.index none

end Network

end JavaMetrics.Java
