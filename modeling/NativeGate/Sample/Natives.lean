import NativeGate.Hook.Host

/-!
Sample natives: small functions in native code to call, hook and test against. Each is a name, a
signature and what it does with values of its parameter kinds; strings reach it as addresses.
Integers wrap. The natives stand one after the other in the address space, so an address tells which
native is there.
-/

namespace NativeGate.Sample
open Hook

/-- What a callback or a call by a callback left in the log. -/
inductive Entry where
  | ran (callback : String) (phase : Phase) (args : List Value) (result : Value)
  | added (outcome : Except Error Unit)
  | uninstalled (removed : Bool)
  | called (outcome : Except Error Value)

/-- What the natives and callbacks of a sample process keep: a cell that natives add to, the last
    argument of the native without a result, the buffer passed to a native directly, the log with
    the latest entry first, and a table of callbacks apart from the registry. -/
structure State where
  cell : Int
  last : Int
  buffer : Address
  log : List Entry
  side : Table String

def State.fresh : State := ⟨0, 0, .null, [], .empty⟩

abbrev SampleWorld := HostWorld String State

abbrev SampleCode := HostCode String State

/-- Changes the state of the natives. -/
def update (f : State → State) (w : SampleWorld) : SampleWorld :=
  w.mapOwn fun p => { p with rest := f p.rest }

def state (w : SampleWorld) : State := w.native.own.rest

/-- A native function: what it does with its arguments, given the means to run other code. -/
structure Native where
  name : String
  signature : String
  run : SampleCode → List Value → SampleWorld → Value × SampleWorld

namespace Native

/-- A native that only computes. -/
def pure (name signature : String) (f : List Value → Value) : Native :=
  ⟨name, signature, fun _ args w => (f args, w)⟩

/-- A native that looks at memory. -/
def reading (name signature : String) (f : Memory → List Value → Value) : Native :=
  ⟨name, signature, fun _ args w => (f w.memory args, w)⟩

end Native

/-! ### Arguments and results -/

def int (args : List Value) (i : Nat) : Int := ((args[i]?.bind Value.integer?)).getD 0

def single (args : List Value) (i : Nat) : Single :=
  match args[i]? with
  | some (.float x) => x
  | _ => ⟨0⟩

def double (args : List Value) (i : Nat) : Double :=
  match args[i]? with
  | some (.double x) => x
  | _ => ⟨0⟩

def address (args : List Value) (i : Nat) : Address := ((args[i]?.bind Value.pointer?)).getD .null

def first (args : List Value) : Value := args.headD .none

/-- A result of bytes, put into memory when it crosses. -/
def bytes (bs : List UInt8) : Value := .string (.upToNul bs)

def text (s : String) : Value := bytes (Text.utf8 s)

/-- Length of the string at an address, or another number for null. -/
def lengthOr (other : Int) (m : Memory) (a : Address) : Int :=
  if a.isNull then other else (m.cstring a).bytes.length

/-- The 32-bit integer at an address. -/
def load (m : Memory) (a : Address) : Int :=
  ((Value.decode (.integer .int) (m.load a 4)).integer?).getD 0

/-- The address at an address. -/
def follow (m : Memory) (a : Address) : Address := .ofNat (ofLittleEndian (m.load a 8))

/-- Stores a 32-bit integer. -/
def storeInt (a : Address) (n : Int) (w : SampleWorld) : SampleWorld :=
  { w with memory := w.memory.store a (Value.ofInt .int n).stored }

/-- The sum of the first integers times one, two, three and so on. -/
def weighted (args : List Value) : Int :=
  (args.zipIdx 1).foldl (fun sum (v, i) => sum + v.integer?.getD 0 * i) 0

/-- A floating-point product with a small integer. -/
def times (n : Int) (x : Double) : Double := (Double.ofInt n).mul x

/-! ### The natives -/

/-- One identity for each kind of parameter. -/
def identities : List Native :=
  [("id_bool", "B)B"), ("id_char", "c)c"), ("id_uchar", "C)C"), ("id_short", "s)s"),
    ("id_ushort", "S)S"), ("id_int", "i)i"), ("id_uint", "I)I"), ("id_long", "j)j"),
    ("id_ulong", "J)J"), ("id_longlong", "l)l"), ("id_ulonglong", "L)L"), ("id_float", "f)f"),
    ("id_double", "d)d"), ("id_ptr", "p)p"), ("id_str", "Z)Z")].map fun (n, s) => .pure n s first

/-- Arithmetic and texts. -/
def computing : List Native :=
  [.pure "add_i32" "ii)i" fun a => .ofInt .int (int a 0 + int a 1),
    .pure "mul_f64" "dd)d" fun a => .double ((double a 0).mul (double a 1)),
    .pure "half_f32" "f)f" fun a => .float (single a 0).half,
    .pure "no_args" ")i" fun _ => .ofInt .int 42,
    .pure "neg_char" "c)c" fun a => .ofInt .char (-(int a 0)),
    .pure "max_ushort" ")S" fun _ => .ofInt .ushort 65535,
    .pure "wide" "lLj)l" fun a => .ofInt .longLong (int a 0 + int a 1 + int a 2),
    .pure "flip" "B)B" fun a => .bool (int a 0 == 0),
    .reading "strlen_of" "Z)i" fun m a => .ofInt .int (lengthOr (-1) m (address a 0)),
    .pure "greeting" ")Z" fun _ => text "hello",
    .pure "empty" ")Z" fun _ => text "",
    .pure "nothing" ")Z" fun _ => .none,
    .pure "latin" ")Z" fun _ => bytes [0x63, 0x61, 0x66, 0xe9],
    .pure "mix8" "cCsSiIlL)l" fun a => .ofInt .longLong (weighted a),
    .pure "mix_fd" "ifdifd)d" fun a =>
      .double <| List.foldl Double.add (.ofInt (int a 0))
        [times 2 (single a 1).toDouble, times 3 (double a 2), times 4 (.ofInt (int a 3)),
          times 5 (single a 4).toDouble, times 6 (double a 5)],
    .pure "sum10" "llllllllll)l" fun a => .ofInt .longLong (weighted a),
    .pure "sub10" "dddddddddd)d" fun a =>
      .double ((List.range 9).foldl (fun x i => x.sub (double a (i + 1))) (double a 0)),
    .reading "join" "ZZ)Z" fun m a =>
      let part (p : Address) := if p.isNull then Text.utf8 "(null)" else (m.cstring p).bytes
      bytes (part (address a 0) ++ part (address a 1))]

/-- Natives with state, memory or calls of their own. -/
def acting : List Native :=
  [⟨"bump", "i)v", fun _ a w =>
      (.none, update (fun s => { s with cell := IntKind.int.wrap (s.cell + int a 0) }) w)⟩,
    ⟨"cell", ")i", fun _ _ w => (.ofInt .int (state w).cell, w)⟩,
    .reading "load" "p)i" fun m a => .ofInt .int (load m (address a 0)),
    ⟨"store", "pi)v", fun _ a w => (.none, storeInt (address a 0) (int a 1) w)⟩,
    .reading "scale" "pi)i" fun m a => .ofInt .int (load m (address a 0) * int a 1),
    .reading "follow" "p)p" fun m a => .pointer (follow m (address a 0)),
    .pure "after" "pl)p" fun a => .pointer ((address a 0).add (int a 1))]

/-- Functions to hook. -/
def hookable : List Native :=
  [.pure "h_add" "ii)i" fun a => .ofInt .int (int a 0 + int a 1),
    .pure "h_wide" "l)l" fun a => .ofInt .longLong (3 * int a 0),
    .pure "h_long" "j)j" fun a => .ofInt .long (-(int a 0)),
    .pure "h_ulong" "L)L" fun a => .ofInt .ulongLong (-(int a 0) - 1),
    .pure "h_char" "c)c" fun a => .ofInt .char (int a 0 + 1),
    .pure "h_ushort" "S)S" fun a => .ofInt .ushort (int a 0 - 1),
    .pure "h_bool" "B)B" fun a => .bool (int a 0 == 0),
    .pure "h_float" "f)f" fun a => .float ((single a 0).add (single a 0)),
    .pure "h_double" "dd)d" fun a => .double ((double a 0).sub (double a 1)),
    .pure "h_ptr" "p)p" first,
    .reading "h_strlen" "Z)i" fun m a => .ofInt .int (lengthOr (-1) m (address a 0)),
    .pure "h_parity" "i)Z" fun a =>
      if int a 0 < 0 then .none else text (if int a 0 % 2 = 0 then "even" else "odd"),
    ⟨"h_own", "Z)i", fun _ a w =>
      let p := address a 0
      (.ofInt .int (if !p.isNull && p == (state w).buffer then 1 else 0), w)⟩,
    ⟨"h_void", "i)v", fun _ a w => (.none, update (fun s => { s with last := int a 0 }) w)⟩]

/-- Functions that a shared library exports. -/
def exported : List Native :=
  [.pure "fx_add" "ii)i" fun a => .ofInt .int (int a 0 + int a 1),
    .pure "fx_neg" "j)j" fun a => .ofInt .long (-(int a 0)),
    .pure "fx_mul" "dd)d" fun a => .double ((double a 0).mul (double a 1)),
    .pure "fx_halff" "f)f" fun a => .float (single a 0).half,
    .pure "fx_not" "B)B" fun a => .bool (int a 0 == 0),
    .pure "fx_incc" "c)c" fun a => .ofInt .char (int a 0 + 1),
    .pure "fx_incuc" "C)C" fun a => .ofInt .uchar (int a 0 + 1),
    .pure "fx_ids" "s)s" first, .pure "fx_idus" "S)S" first, .pure "fx_idu" "I)I" first,
    .pure "fx_idul" "J)J" first, .pure "fx_idll" "l)l" first, .pure "fx_id" "p)p" first,
    .pure "fx_echo" "Z)Z" first,
    .pure "fx_max64" ")L" fun _ => .ofInt .ulongLong (-1),
    .pure "fx_greet" ")Z" fun _ => text "hi from \"fixture\"",
    .pure "fx_latin" ")Z" fun _ => bytes [0x63, 0x61, 0x66, 0xe9],
    .pure "fx_null" ")Z" fun _ => .none,
    .reading "fx_len" "Z)L" fun m a => .ofInt .ulongLong (lengthOr 999 m (address a 0)),
    .pure "fx_noop" ")v" fun _ => .none,
    .pure "fx_sub6" "iiiiii)i" fun a =>
      .ofInt .int ((List.range 5).foldl (fun n i => n - int a (i + 1)) (int a 0)),
    .reading "fx_load" "p)i" fun m a => .ofInt .int (load m (address a 0)),
    ⟨"fx_store", "pi)v", fun _ a w => (.none, storeInt (address a 0) (int a 1) w)⟩,
    .reading "fx_next" "p)p" fun m a => .pointer (follow m (address a 0))]

/-- Functions of the C library. -/
def system : List Native :=
  [.pure "abs" "i)i" fun a => .ofInt .int (int a 0).natAbs,
    .pure "labs" "j)j" fun a => .ofInt .long (int a 0).natAbs,
    .pure "toupper" "i)i" fun a =>
      .ofInt .int (if 97 ≤ int a 0 ∧ int a 0 ≤ 122 then int a 0 - 32 else int a 0),
    .reading "strlen" "Z)L" fun m a => .ofInt .ulongLong (lengthOr 0 m (address a 0))]

/-! ### Addresses -/

/-- Where the native at a position of the listing stands. -/
def addressAt (position : Nat) : Address := .ofNat (0x5a0000000000 + 256 * position)

/-- The natives that call other natives, given where those are. -/
def calling (locate : String → Address) : List Native :=
  [⟨"busy", ")i", fun code _ w =>
      let f : Function := ⟨locate "no_args", .cdecl, ⟨[], .integer .int, by simp⟩⟩
      match f.callShared code [] w with
      | (.ok v, w) => (.ofInt .int (v.integer?.getD 0), w)
      | (.error e, w) => (.ofInt .int (-(e.name.length : Int)), w)⟩,
    ⟨"h_fact", "i)i", fun code a w =>
      if int a 0 ≤ 1 then (.ofInt .int 1, w)
      else
        let (x, w) := code (locate "h_fact") [(Value.ofInt .int (int a 0 - 1)).word] w
        (.ofInt .int (int a 0 * int [Value.ofWord (.integer .int) x] 0), w)⟩]

def quiet : List Native := identities ++ computing ++ acting ++ hookable ++ exported ++ system

def callingNames : List String := ["busy", "h_fact"]

/-- The address of a native of the listing. -/
def locate? (name : String) : Option Address :=
  ((quiet.map (·.name) ++ callingNames).findIdx? (· == name)).map addressAt

/-- Every native, in the order of their addresses. -/
def natives : List Native := quiet ++ calling fun name => (locate? name).getD .null

/-- The native at an address. -/
def nativeAt? (a : Address) : Option Native :=
  (natives.zipIdx.find? fun (_, i) => addressAt i == a).map (·.1)

def native? (name : String) : Option Native := natives.find? fun n => n.name == name

/-- The native as a function, with the C convention unless another is asked for. -/
def functionOf? (name : String) (convention : Convention) : Option Function := do
  let native ← native? name
  let address ← locate? name
  (Function.parse address convention native.signature).toOption

/-- A place where no detour can be put, and why. -/
structure Barrier where
  name : String
  address : Address
  reason : String

def barriers : List Barrier :=
  [⟨"unmapped", .ofNat 0x1000, "Queried memory is unmapped"⟩,
    ⟨"data", .ofNat 0x5b0000000000, "Address is not executable"⟩]

/-- The site of the sample process. -/
def site : Site :=
  ⟨fun a => (barriers.find? fun b => b.address == a).map (·.reason), 0x100000⟩

/-- What can be named as the target of a hook: the null function, a place without code, or a
    native. -/
def target? (name : String) : Option Function :=
  let place :=
    if name = "null" then some .null
    else (barriers.find? fun b => b.name == name).map (·.address)
  match place with
  | some a => some ⟨a, .cdecl, ⟨[.integer .int], .integer .int, by decide⟩⟩
  | none => functionOf? name .cdecl

/-- What the code of a native does with argument words. -/
def Native.body (n : Native) (code : SampleCode) (words : List UInt64) (w : SampleWorld) :
    UInt64 × SampleWorld :=
  match Signature.parse n.signature with
  | .ok s =>
    let args := (s.params.zip words).map fun (k, x) => decodeArgument k x
    let (v, w) := n.run code args w
    v.toWord w
  | .error _ => (0, w)

end NativeGate.Sample
