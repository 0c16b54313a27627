/-!
A reproducible stream of random words: eight rounds of the ChaCha cipher in counter mode, keyed by a
64-bit seed.
-/

namespace Tabletop

/-- A key, the number of the next block and the words of the current block still to come. -/
structure RandomStream where
  key : List UInt32
  block : UInt64
  pending : List UInt32
  deriving DecidableEq, Repr

namespace RandomStream

def rotateLeft (word : UInt32) (amount : UInt32) : UInt32 :=
  (word <<< amount) ||| (word >>> (32 - amount))

def rotateRight (word : UInt32) (amount : UInt32) : UInt32 :=
  if amount = 0 then word else (word >>> amount) ||| (word <<< (32 - amount))

/-- One step of a linear congruential generator and the word it gives. -/
def seedStep (state : UInt64) : UInt64 × UInt32 :=
  let next := state * 6364136223846793005 + 11634580027462260723
  let mixed := (((next >>> 18) ^^^ next) >>> 27).toUInt32
  (next, rotateRight mixed (next >>> 59).toUInt32)

def seedWords : Nat → UInt64 → List UInt32
  | 0, _ => []
  | count + 1, state =>
    let (next, word) := seedStep state
    word :: seedWords count next

/-- The stream of a seed, from its first word. -/
def ofSeed (seed : UInt64) : RandomStream := ⟨seedWords 8 seed, 0, []⟩

/-- The words of the cipher's state, sixteen to a block. -/
structure Quad where
  a : UInt32
  b : UInt32
  c : UInt32
  d : UInt32

/-- The quarter round: four additions, each mixed into a word that is then rotated. -/
def Quad.mix (q : Quad) : Quad :=
  let a := q.a + q.b
  let d := rotateLeft (q.d ^^^ a) 16
  let c := q.c + d
  let b := rotateLeft (q.b ^^^ c) 12
  let a := a + b
  let d := rotateLeft (d ^^^ a) 8
  let c := c + d
  let b := rotateLeft (b ^^^ c) 7
  ⟨a, b, c, d⟩

/-- Four columns of the state. -/
structure Grid where
  w : Quad
  x : Quad
  y : Quad
  z : Quad

/-- Mixes the columns, then the diagonals. -/
def Grid.doubleRound (g : Grid) : Grid :=
  let w := g.w.mix
  let x := g.x.mix
  let y := g.y.mix
  let z := g.z.mix
  let p := Quad.mix ⟨w.a, x.b, y.c, z.d⟩
  let q := Quad.mix ⟨x.a, y.b, z.c, w.d⟩
  let r := Quad.mix ⟨y.a, z.b, w.c, x.d⟩
  let s := Quad.mix ⟨z.a, w.b, x.c, y.d⟩
  ⟨⟨p.a, s.b, r.c, q.d⟩, ⟨q.a, p.b, s.c, r.d⟩, ⟨r.a, q.b, p.c, s.d⟩, ⟨s.a, r.b, q.c, p.d⟩⟩

def Quad.add (p q : Quad) : Quad := ⟨p.a + q.a, p.b + q.b, p.c + q.c, p.d + q.d⟩

def Grid.words (g : Grid) : List UInt32 :=
  [g.w.a, g.x.a, g.y.a, g.z.a, g.w.b, g.x.b, g.y.b, g.z.b,
    g.w.c, g.x.c, g.y.c, g.z.c, g.w.d, g.x.d, g.y.d, g.z.d]

/-- The sixteen words of one block. -/
def blockWords (key : List UInt32) (block : UInt64) : List UInt32 :=
  let word (i : Nat) : UInt32 := key.getD i 0
  let start : Grid :=
    ⟨⟨0x61707865, word 0, word 4, block.toUInt32⟩,
      ⟨0x3320646e, word 1, word 5, (block >>> 32).toUInt32⟩,
      ⟨0x79622d32, word 2, word 6, 0⟩,
      ⟨0x6b206574, word 3, word 7, 0⟩⟩
  let mixed := start.doubleRound.doubleRound.doubleRound.doubleRound
  Grid.words ⟨mixed.w.add start.w, mixed.x.add start.x, mixed.y.add start.y, mixed.z.add start.z⟩

/-- The next word and the stream after it. -/
def next (stream : RandomStream) : UInt32 × RandomStream :=
  match stream.pending with
  | word :: rest => (word, { stream with pending := rest })
  | [] => match blockWords stream.key stream.block with
    | word :: rest => (word, { stream with block := stream.block + 1, pending := rest })
    | [] => (0, stream)

/-- The next `count` words. -/
def take : Nat → RandomStream → List UInt32 × RandomStream
  | 0, stream => ([], stream)
  | count + 1, stream =>
    let (word, after) := stream.next
    let (words, last) := take count after
    (word :: words, last)

/-- Words above this bound are refused, so that every index below `count` is equally likely. -/
def acceptanceBound (count : Nat) : Nat := count <<< (31 - count.log2) - 1

/-- An index below `count`: the high half of a word's product with it, once the low half is within
the bound. After as many refusals as `attempts` the next word is taken as it comes. -/
def indexBelow (count : Nat) : (attempts : Nat) → RandomStream → Nat × RandomStream
  | 0, stream =>
    let (word, after) := stream.next
    (word.toNat * count / Nat.pow 2 32, after)
  | attempts + 1, stream =>
    let (word, after) := stream.next
    let product := word.toNat * count
    if product % Nat.pow 2 32 ≤ acceptanceBound count then (product / Nat.pow 2 32, after)
    else indexBelow count attempts after

/-- A member of a list, each place equally likely; an empty list draws nothing. -/
def choose {α : Type} (items : List α) (stream : RandomStream) : Option α × RandomStream :=
  if items.isEmpty then (none, stream)
  else
    let (index, after) := indexBelow items.length 1000 stream
    (items[index]?, after)

end RandomStream
end Tabletop
