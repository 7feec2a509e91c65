/-!
# The digest of a message

The digest is twenty bytes long. A message is filled up to blocks of sixteen words and digested
block by block: each block is spread over eighty words, and each of these goes into the state once.
-/

namespace Retrieval.Sha1

structure State where
  a : UInt32
  b : UInt32
  c : UInt32
  d : UInt32
  e : UInt32

def initial : State := ⟨0x67452301, 0xEFCDAB89, 0x98BADCFE, 0x10325476, 0xC3D2E1F0⟩

def rotate (x : UInt32) (n : UInt32) : UInt32 := (x <<< n) ||| (x >>> (32 - n))

/-- How many words a block is spread over. -/
def rounds : Nat := 80

def schedule (block : Array UInt32) : Array UInt32 :=
  (List.range (rounds - 16)).foldl (fun w i =>
    let at_ (k : Nat) : UInt32 := w.getD (i + k) 0
    w.push (rotate (at_ 13 ^^^ at_ 8 ^^^ at_ 2 ^^^ at_ 0) 1)) block

/-- The mixture of three words, and the constant, in a round. -/
def mixture (t : Nat) (b c d : UInt32) : UInt32 × UInt32 :=
  if t < 20 then ((b &&& c) ||| (~~~b &&& d), 0x5A827999)
  else if t < 40 then (b ^^^ c ^^^ d, 0x6ED9EBA1)
  else if t < 60 then ((b &&& c) ||| (b &&& d) ||| (c &&& d), 0x8F1BBCDC)
  else (b ^^^ c ^^^ d, 0xCA62C1D6)

def round (s : State) (t : Nat) (word : UInt32) : State :=
  let (f, k) := mixture t s.b s.c s.d
  ⟨rotate s.a 5 + f + s.e + k + word, s.a, rotate s.b 30, s.c, s.d⟩

/-- The state behind a block. -/
def compress (s : State) (block : Array UInt32) : State :=
  let w := schedule block
  let t := (List.range rounds).foldl (fun acc i => round acc i (w.getD i 0)) s
  ⟨s.a + t.a, s.b + t.b, s.c + t.c, s.d + t.d, s.e + t.e⟩

def bytesOf (n count : Nat) : List UInt8 :=
  (List.range count).map fun i => (n >>> (8 * (count - 1 - i))).toUInt8

def blockBytes : Nat := 64

/-- A message as it is digested: a single bit and zeros behind it, and its length in bits at the end
of a block. -/
def padded (message : ByteArray) : ByteArray :=
  let zeros := (2 * blockBytes - 9 - message.size % blockBytes) % blockBytes
  message ++ ⟨(0x80 :: List.replicate zeros 0 ++ bytesOf (8 * message.size) 8).toArray⟩

def wordAt (m : ByteArray) (i : Nat) : UInt32 :=
  let byte (k : Nat) : UInt32 := ((m[i + k]?).getD 0).toUInt32
  (byte 0 <<< 24) ||| (byte 1 <<< 16) ||| (byte 2 <<< 8) ||| byte 3

def blockAt (m : ByteArray) (i : Nat) : Array UInt32 :=
  ((List.range 16).map fun k => wordAt m (i + 4 * k)).toArray

def digest (message : ByteArray) : List UInt8 :=
  let m := padded message
  let s := (List.range (m.size / blockBytes)).foldl
    (fun s i => compress s (blockAt m (blockBytes * i))) initial
  [s.a, s.b, s.c, s.d, s.e].flatMap fun w => bytesOf w.toNat 4

end Retrieval.Sha1
