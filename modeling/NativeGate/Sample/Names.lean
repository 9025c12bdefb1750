import NativeGate.Sample.Natives

/-!
Names for places. A session names the blocks that it takes and other addresses that it keeps. A
place is shown by the block it lies in and the bytes before it there, or by the native that begins
there, and by its address where it has no name.
-/

namespace NativeGate.Sample

/-- The names of blocks, and of every address kept; the latest stands first. -/
structure Names where
  blocks : List (String × Address)
  kept : List (String × Address)

namespace Names

def none : Names := ⟨[], []⟩

/-- Keeps an address under a name. -/
def keep (ns : Names) (name : String) (a : Address) : Names :=
  { ns with kept := (name, a) :: ns.kept }

/-- Gives a block a name, which then names no other block. -/
def keepBlock (ns : Names) (name : String) (a : Address) : Names :=
  { ns.keep name a with blocks := (name, a) :: ns.blocks.filter (·.1 ≠ name) }

/-- The address kept under a name, or else that of a native; null for an unknown name. -/
def address (ns : Names) (name : String) : Address :=
  ((ns.kept.lookup name).or (locate? name)).getD .null

/-- The named block that an address lies in; the end of a block still counts as in it. -/
def block? (ns : Names) (m : Memory) (a : Address) : Option (String × Address) :=
  ns.blocks.find? fun (_, base) =>
    m.heap.any fun e => e.base == base && Memory.reach base a ≤ e.size

/-- The name of a place, if it has one. -/
def name? (ns : Names) (m : Memory) (a : Address) : Option String :=
  match ns.block? m a with
  | some (name, base) => some (name ++ "+" ++ toString (Memory.reach base a))
  | Option.none => (nativeAt? a).map fun n => "fn:" ++ n.name

def display (ns : Names) (m : Memory) (a : Address) : String := (ns.name? m a).getD a.display

/-- Shows the place of a write through `p`: a place without a name by its signed distance from the
    start of the block of `p`. -/
def displayFrom (ns : Names) (m : Memory) (p a : Address) : String :=
  match ns.name? m a, ns.block? m p with
  | Option.none, some (name, base) =>
    let n := base.distance a
    name ++ (if n < 0 then "-" else "+") ++ toString n.natAbs
  | _, _ => ns.display m a

end Names

end NativeGate.Sample
