/-!
Bytes read as UTF-8: strictly, or with a replacement character for each malformed sequence.
-/
namespace Rollup

/-- The lead byte of a character: how many continuation bytes follow, the range of the first of
them, and the bits the lead contributes. -/
structure Lead where
  following : Nat
  low : UInt8
  high : UInt8
  bits : Nat

/-- Overlong forms, surrogates and code points past the last one are excluded by the range of the
first continuation byte. -/
def Lead.ofByte (b : UInt8) : Option Lead :=
  if b < 0x80 then some ⟨0, 0, 0, b.toNat⟩
  else if b < 0xC2 then none
  else if b < 0xE0 then some ⟨1, 0x80, 0xBF, b.toNat - 0xC0⟩
  else if b = 0xE0 then some ⟨2, 0xA0, 0xBF, 0⟩
  else if b = 0xED then some ⟨2, 0x80, 0x9F, 0xD⟩
  else if b < 0xF0 then some ⟨2, 0x80, 0xBF, b.toNat - 0xE0⟩
  else if b = 0xF0 then some ⟨3, 0x90, 0xBF, 0⟩
  else if b < 0xF4 then some ⟨3, 0x80, 0xBF, b.toNat - 0xF0⟩
  else if b = 0xF4 then some ⟨3, 0x80, 0x8F, 4⟩
  else none

/-- A character under way: the continuation bytes still owed, the range of the next one, and the
bits so far. -/
structure Partial where
  owed : Nat
  low : UInt8
  high : UInt8
  bits : Nat

/-- Reads on from between characters, or from inside one; `done` holds what is read, newest first.
A malformed sequence counts once for its longest well-formed beginning, and the byte that broke it
is read afresh. -/
def unitsFrom (done : List (Option Char)) : Option Partial → List UInt8 → List (Option Char)
  | none, [] => done.reverse
  | some _, [] => (none :: done).reverse
  | none, b :: rest => start done b rest
  | some p, b :: rest =>
    if p.low ≤ b && b ≤ p.high then
      let bits := p.bits * 64 + b.toNat % 64
      if p.owed ≤ 1 then unitsFrom (some (Char.ofNat bits) :: done) none rest
      else unitsFrom done (some ⟨p.owed - 1, 0x80, 0xBF, bits⟩) rest
    else start (none :: done) b rest
where
  start (done : List (Option Char)) (b : UInt8) (rest : List UInt8) : List (Option Char) :=
    match Lead.ofByte b with
    | none => unitsFrom (none :: done) none rest
    | some lead =>
      if lead.following = 0 then unitsFrom (some (Char.ofNat lead.bits) :: done) none rest
      else unitsFrom done (some ⟨lead.following, lead.low, lead.high, lead.bits⟩) rest

/-- The characters of `bytes` in order, `none` standing for a malformed sequence. -/
def utf8Units (bytes : List UInt8) : List (Option Char) := unitsFrom [] none bytes

def decodeStrict (bytes : List UInt8) : Option (List Char) :=
  let units := utf8Units bytes
  if units.all Option.isSome then some (units.filterMap id) else none

def replacement : Char := '\uFFFD'

def decodeLossy (bytes : List UInt8) : String :=
  String.ofList ((utf8Units bytes).map (·.getD replacement))

end Rollup
