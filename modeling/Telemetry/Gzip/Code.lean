import Telemetry.Gzip.Bits

/-!
# Prefix codes

A code for symbols is given by the length of each symbol's word alone. Words of one
length are consecutive numbers in the order of their symbols, and shorter words
come before longer ones; so the lengths determine the words. The words are put into
a binary tree, in which a symbol is found bit by bit.

A code must fill the tree. Only a code for at most one symbol need not, and not
even that is allowed for the code that writes the lengths themselves.
-/

namespace Telemetry.Gzip

/-- A binary tree with symbols at its leaves. -/
inductive CodeTree where
  /-- No word leads here. -/
  | empty
  /-- The word of a symbol ends here. -/
  | leaf (symbol : Nat)
  /-- The next bit decides. -/
  | node (zero one : CodeTree)
deriving DecidableEq, Repr

namespace CodeTree

/-- The tree with the word of another symbol. The word is given by its bits, the
first one first. -/
def insert (symbol : Nat) : List Bool → CodeTree → CodeTree
  | [], _ => .leaf symbol
  | false :: word, .node zero one => .node (insert symbol word zero) one
  | true :: word, .node zero one => .node zero (insert symbol word one)
  | false :: word, _ => .node (insert symbol word .empty) .empty
  | true :: word, _ => .node .empty (insert symbol word .empty)

/-- The symbol that the next bits are the word of. -/
def find (bits : Bits) : CodeTree → Except Fault (Nat × Bits)
  | .empty => .error .corrupt
  | .leaf symbol => .ok (symbol, bits)
  | .node zero one =>
    match bits.next with
    | .error e => .error e
    | .ok (bit, bits) => if bit = 0 then find bits zero else find bits one

end CodeTree

/-- The low `length` bits of a number, the most significant first. -/
def wordOf (length code : Nat) : List Bool :=
  (List.range length).reverse.map fun i => code.testBit i

/-- How many symbols have words of a length. -/
def countOf (lengths : List Nat) (length : Nat) : Nat := lengths.count length

/-- The first word of a length: behind the last word of the length before, with a
bit more. -/
def firstCode (lengths : List Nat) : Nat → Nat
  | 0 => 0
  | length + 1 =>
    2 * (firstCode lengths length + if length = 0 then 0 else countOf lengths length)

/-- The longest word there can be. -/
def maxLength : Nat := 15

/-- How much of the tree the words of all symbols fill, in leaves of depth
`maxLength`. -/
def filled (lengths : List Nat) : Nat :=
  (List.range maxLength).foldl
    (fun n i => n + countOf lengths (i + 1) * Nat.pow 2 (maxLength - (i + 1))) 0

/-- The words of symbols from `symbol` on, `next` telling the next free word of a
length. -/
def insertWords : (symbol : Nat) → (next : Nat → Nat) → List Nat → CodeTree → CodeTree
  | _, _, [], tree => tree
  | symbol, next, 0 :: lengths, tree => insertWords (symbol + 1) next lengths tree
  | symbol, next, length :: lengths, tree =>
    insertWords (symbol + 1) (fun l => if l = length then next l + 1 else next l) lengths
      (tree.insert symbol (wordOf length (next length)))

/-- The code of given lengths; without any word, the tree still asks for a bit. -/
def treeOf (lengths : List Nat) : CodeTree :=
  insertWords 0 (firstCode lengths) lengths (.node .empty .empty)

/-- The code of given lengths, if they fill the tree. A code that need not is
accepted with at most one word. -/
def codeOf (mustFill : Bool) (lengths : List Nat) : Except Fault CodeTree :=
  if filled lengths = Nat.pow 2 maxLength then .ok (treeOf lengths)
  else if mustFill || 1 < (lengths.filter (· != 0)).length then .error .corrupt
  else .ok (treeOf lengths)

end Telemetry.Gzip
