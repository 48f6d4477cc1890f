namespace ActionCatalog.SipHash

/-- The four words of the state of SipHash-1-3, whose key is zero here. -/
structure State where
  a : UInt64
  b : UInt64
  c : UInt64
  d : UInt64
deriving DecidableEq

def rotateLeft (x n : UInt64) : UInt64 := (x <<< n) ||| (x >>> (64 - n))

def start : State :=
  ⟨0x736f6d6570736575, 0x646f72616e646f6d, 0x6c7967656e657261, 0x7465646279746573⟩

def round (s : State) : State :=
  let a := s.a + s.b
  let b := rotateLeft s.b 13 ^^^ a
  let a := rotateLeft a 32
  let c := s.c + s.d
  let d := rotateLeft s.d 16 ^^^ c
  let a := a + d
  let d := rotateLeft d 21 ^^^ a
  let c := c + b
  let b := rotateLeft b 17 ^^^ c
  let c := rotateLeft c 32
  ⟨a, b, c, d⟩

def absorb (s : State) (word : UInt64) : State :=
  let s := round { s with d := s.d ^^^ word }
  { s with a := s.a ^^^ word }

def wordOf : List UInt8 → UInt64
  | [] => 0
  | b :: bs => b.toUInt64 ||| (wordOf bs <<< 8)

/-- Takes in the bytes eight at a time, and at the end those that are left with the length of the
whole. -/
def absorbAll (length : Nat) (s : State) : List UInt8 → State
  | b₁ :: b₂ :: b₃ :: b₄ :: b₅ :: b₆ :: b₇ :: b₈ :: rest =>
    absorbAll length (absorb s (wordOf [b₁, b₂, b₃, b₄, b₅, b₆, b₇, b₈])) rest
  | rest => absorb s (wordOf rest ||| (length.toUInt64 <<< 56))

def hash (bytes : List UInt8) : UInt64 :=
  let s := absorbAll bytes.length start bytes
  let s := round (round (round { s with c := s.c ^^^ 0xff }))
  s.a ^^^ s.b ^^^ s.c ^^^ s.d

def hexDigits (n : UInt64) : List Char :=
  let digits := Nat.toDigits 16 n.toNat
  List.replicate (16 - digits.length) '0' ++ digits

end ActionCatalog.SipHash
