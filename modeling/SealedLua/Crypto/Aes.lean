/-!
# AES-256

Encryption of single blocks.  A state is four columns of four bytes; bytes are
elements of a field of 256 elements, in which the substitution inverts.
-/

namespace SealedLua.Aes

/-- The product with the element `2` of the field. -/
def double (x : UInt8) : UInt8 := (x <<< 1) ^^^ (if x < 0x80 then 0 else 0x1B)

/-- The product of `x` with the element whose lowest `bits` bits are those of `y`. -/
def mulBits (x y : UInt8) : Nat → UInt8
  | 0 => 0
  | bits + 1 => (if y &&& 1 == 1 then x else 0) ^^^ mulBits (double x) (y >>> 1) bits

def mul (x y : UInt8) : UInt8 := mulBits x y 8

/-- The inverse; zero is its own. -/
def inverse (x : UInt8) : UInt8 :=
  let x2 := mul x x
  let x4 := mul x2 x2
  let x8 := mul x4 x4
  let x16 := mul x8 x8
  let x32 := mul x16 x16
  let x64 := mul x32 x32
  mul (mul (mul x2 x4) (mul x8 x16)) (mul (mul x32 x64) (mul x64 x64))

def rotate (x n : UInt8) : UInt8 := (x <<< n) ||| (x >>> (8 - n))

/-- The values of the substitution. -/
def table : Array UInt8 :=
  ((List.range 256).map fun n =>
    let x := inverse (UInt8.ofNat n)
    x ^^^ rotate x 1 ^^^ rotate x 2 ^^^ rotate x 3 ^^^ rotate x 4 ^^^ 0x63).toArray

def substitute (x : UInt8) : UInt8 := table[x.toNat]?.getD 0

structure Column where
  a : UInt8
  b : UInt8
  c : UInt8
  d : UInt8
deriving DecidableEq

namespace Column

def add (x y : Column) : Column := ⟨x.a ^^^ y.a, x.b ^^^ y.b, x.c ^^^ y.c, x.d ^^^ y.d⟩

def substituted (x : Column) : Column :=
  ⟨substitute x.a, substitute x.b, substitute x.c, substitute x.d⟩

def rotated (x : Column) : Column := ⟨x.b, x.c, x.d, x.a⟩

def mixed (x : Column) : Column :=
  let sum := x.a ^^^ x.b ^^^ x.c ^^^ x.d
  ⟨x.a ^^^ sum ^^^ double (x.a ^^^ x.b), x.b ^^^ sum ^^^ double (x.b ^^^ x.c),
    x.c ^^^ sum ^^^ double (x.c ^^^ x.d), x.d ^^^ sum ^^^ double (x.d ^^^ x.a)⟩

def toList (x : Column) : List UInt8 := [x.a, x.b, x.c, x.d]

end Column

structure State where
  p : Column
  q : Column
  r : Column
  s : Column
deriving DecidableEq

namespace State

def map (f : Column → Column) (x : State) : State := ⟨f x.p, f x.q, f x.r, f x.s⟩

def add (x y : State) : State := ⟨x.p.add y.p, x.q.add y.q, x.r.add y.r, x.s.add y.s⟩

def shifted (x : State) : State :=
  ⟨⟨x.p.a, x.q.b, x.r.c, x.s.d⟩, ⟨x.q.a, x.r.b, x.s.c, x.p.d⟩, ⟨x.r.a, x.s.b, x.p.c, x.q.d⟩,
    ⟨x.s.a, x.p.b, x.q.c, x.r.d⟩⟩

def toList (x : State) : List UInt8 := x.p.toList ++ x.q.toList ++ x.r.toList ++ x.s.toList

@[simp] theorem length_toList (x : State) : x.toList.length = 16 := rfl

/-- A state of sixteen bytes; bytes that are missing are zero. -/
def ofList (codes : List UInt8) : State :=
  let byte := fun (i : Nat) => codes[i]?.getD 0
  let column := fun (i : Nat) => (⟨byte i, byte (i + 1), byte (i + 2), byte (i + 3)⟩ : Column)
  ⟨column 0, column 4, column 8, column 12⟩

/-- The round key after `before` and `last`; `f` is applied to the last column. -/
def following (before last : State) (f : Column → Column) : State :=
  let p := before.p.add (f last.s)
  let q := before.q.add p
  let r := before.r.add q
  ⟨p, q, r, before.s.add r⟩

end State

def furtherKeys : Nat → UInt8 → State → State → List State
  | 0, _, _, _ => []
  | pairs + 1, constant, before, last =>
    let even := before.following last fun x => x.rotated.substituted.add ⟨constant, 0, 0, 0⟩
    let odd := last.following even Column.substituted
    even :: odd :: furtherKeys pairs (double constant) even odd

def roundKeys (key : List UInt8) : List State :=
  let first := State.ofList (key.take 16)
  let second := State.ofList (key.drop 16)
  (first :: second :: furtherKeys 7 1 first second).take 15

/-- All rounds after the first key has been added; the last does not mix. -/
def rounds (x : State) : List State → State
  | [] => x
  | [key] => (x.map Column.substituted).shifted.add key
  | key :: rest => rounds (((x.map Column.substituted).shifted.map Column.mixed).add key) rest

def encryptWith (keys : List State) (block : List UInt8) : List UInt8 :=
  match keys with
  | [] => (State.ofList block).toList
  | key :: rest => (rounds ((State.ofList block).add key) rest).toList

@[simp] theorem length_encryptWith (keys : List State) (block : List UInt8) :
    (encryptWith keys block).length = 16 := by
  cases keys <;> rfl

/-- Encrypts a block of sixteen bytes under a key of 32 bytes. -/
def encrypt (key block : List UInt8) : List UInt8 := encryptWith (roundKeys key) block

end SealedLua.Aes
