import AtomLog.Bits
import AtomLog.Descriptor.MessageType
import AtomLog.Descriptor.Wire
import AtomLog.Text.Bytes
/-!
Contents of messages from the wire.

The values of one member add up: a list gets longer, a message takes in the members of the next one,
and of any other member the last value counts. Setting a member of a oneof unsets the others.
-/
namespace AtomLog.Descriptor

open Wire (Value Fields)

abbrev Contents := List (Nat × Content)

namespace Contents

def get? (cs : Contents) (number : Nat) : Option Content := cs.lookup number

/-- Set a member of a message type. -/
def put (t : MessageType) (m : Member) (c : Content) (cs : Contents) : Contents :=
  let isRival (n : Nat) : Bool :=
    n != m.number && m.oneof.isSome && ((t.member? n).bind Member.oneof) == m.oneof
  SortedMap.insertEntry m.number c (cs.filter (fun (n, _) => !isRival n))

end Contents

namespace Member

/-- A number of `bits` bits that alternates between signs: 0, -1, 1, -2, … -/
def zigzag (bits n : Nat) : Int :=
  let n := n % Bits.values bits
  if n % 2 = 0 then n / 2 else -((n : Int) + 1) / 2

/-- A number that is written bit by bit, cut to the bits of its kind. -/
def varintContent? (k : FieldKind) (n : Nat) : Option Content :=
  match k with
  | .bool => some (.bool (n ≠ 0))
  | .int32 => some (.int32 (.ofNat n))
  | .enum => some (.enumNumber (.ofNat n))
  | .int64 => some (.int64 (.ofNat n))
  | .uint32 => some (.uint32 (.ofNat n))
  | .uint64 => some (.uint64 (.ofNat n))
  | .sint32 => some (.int32 (.ofInt (zigzag 32 n)))
  | .sint64 => some (.int64 (.ofInt (zigzag 64 n)))
  | _ => none

def fixed32Content? (k : FieldKind) (n : Nat) : Option Content :=
  match k with
  | .fixed32 => some (.uint32 (.ofNat n))
  | .sfixed32 => some (.int32 (.ofNat n))
  | .float => some (.fraction (n % Bits.values 31 = 0))
  | _ => none

def fixed64Content? (k : FieldKind) (n : Nat) : Option Content :=
  match k with
  | .fixed64 => some (.uint64 (.ofNat n))
  | .sfixed64 => some (.int64 (.ofNat n))
  | .double => some (.fraction (n % Bits.values 63 = 0))
  | _ => none

/-- The content of one value of a kind that is no message. -/
def scalar? (k : FieldKind) : Value → Option Content
  | .varint n => varintContent? k n
  | .fixed32 n => fixed32Content? k n
  | .fixed64 n => fixed64Content? k n
  | .bytes bs =>
    match k with
    | .string => (Text.ofBytes? bs).map .str
    | .bytes => some (.bytes bs)
    | _ => none
  | .group _ => none

/-- One number of a kind and the rest. -/
def packedItem? (k : FieldKind) (bs : Wire.Bytes) : Option (Content × Wire.Bytes) :=
  match k with
  | .fixed32 | .sfixed32 | .float => do
    let (n, rest) ← Wire.fixed 4 bs
    return (← fixed32Content? k n, rest)
  | .fixed64 | .sfixed64 | .double => do
    let (n, rest) ← Wire.fixed 8 bs
    return (← fixed64Content? k n, rest)
  | _ => do
    let (n, rest) ← Wire.varint bs
    return (← varintContent? k n, rest)

def packed? (k : FieldKind) : Nat → Wire.Bytes → Option (List Content)
  | 0, _ => none
  | _ + 1, [] => some []
  | fuel + 1, bs => do
    let (c, bs) ← packedItem? k bs
    return c :: (← packed? k fuel bs)

/-- The items of a list that one value gives. Numbers may be packed. -/
def items? (k : FieldKind) (v : Value) : Option (List Content) :=
  match k, v with
  | .string, v | .bytes, v => (scalar? k v).map ([·])
  | k, .bytes bs => packed? k (bs.length + 1) bs
  | k, v => (scalar? k v).map ([·])

/-- The members that one value of a message or a group has. -/
def fields? (k : FieldKind) : Value → Option Fields
  | .bytes bs => if k == .message then Wire.fields bs else none
  | .group fs => if k == .group then some fs else none
  | _ => none

/-- The content of a member that is no message, with one more value. -/
def withScalar? (m : Member) (old : Option Content) (v : Value) : Option Content :=
  if m.repeated then
    (items? m.kind v).map (fun cs => .list ((old.map Content.items).getD [] ++ cs))
  else scalar? m.kind v

end Member

/-- Take one more value into the contents of a message, which may have messages `depth` deep in
it. -/
def merge (ts : Types) : Nat → MessageType → Contents → Nat × Value → Option Contents
  | depth, t, cs, (n, v) =>
    match t.member? n with
    | none => if v.canKeep depth then some cs else none
    | some m =>
      let old := cs.get? n
      if m.isMessage then
        match depth with
        | 0 => none
        | depth + 1 => do
          let fs ← Member.fields? m.kind v
          let start := if m.repeated then [] else (old.map Content.members).getD []
          let c := Content.message (← fs.foldlM (merge ts depth (ts.messageOf m)) start)
          let c := if m.repeated then .list ((old.map Content.items).getD [] ++ [c]) else c
          return cs.put t m c
      else return cs.put t m (← m.withScalar? old v)

end AtomLog.Descriptor
