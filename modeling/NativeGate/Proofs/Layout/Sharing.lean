import Mathlib.Data.List.Induction
import Mathlib.Logic.Function.Basic
import NativeGate.Config
import NativeGate.Layout.Instance
import NativeGate.Proofs.Outcome

/-!
Managers of types and the instances that live on them. A manager is a registry behind handles:
handles stand for the same place just when all of them were cloned from the same new one
(`getElem?_handles_iff`), and every instance keeps the handle it was made through. The registry at a
place shows one map from names to layouts (`Shared`), whichever handles were used, while an instance
keeps the layout that the map had for it when it was made (`managers_share_maps`). What converters
wrap is looked up in the map as it is when they are used.
-/

namespace NativeGate.Layout

/-! ### Requests and answers -/

/-- What is asked of a manager. -/
inductive Ask where
  | add (name : String) (layout : TypeLayout) (override : Bool)
  | setDefault (converter : Option String)
  | lookUp (name : String)
  | view (name : String) (pointer : Address)
  | convert (converter : Option String) (v : Value)

/-- What is asked of an instance, with the memory that is there or what finds exported functions. -/
inductive Use where
  | get (m : Memory) (field : String)
  | set (m : Memory) (field : String) (v : Value)
  | method (resolve : FunctionSpec → Except Error Function) (name : String)
  | virtualMethod (m : Memory) (name : String)

/-- Handles, instances and bound methods go by the number of those that came before them. -/
inductive Request where
  | create
  | clone (handle : Nat)
  | ask (handle : Nat) (a : Ask)
  | use (number : Nat) (u : Use)
  | convertResult (number : Nat) (v : Value)

inductive Answer where
  | done
  | added (r : Except Error TypeLayout)
  | found (layout : Option TypeLayout)
  | viewed (r : Except Error Instance)
  | member (r : Except Error Member)
  | stored (r : Except Error Memory)
  | bound (r : Except Error BoundMethod)
  | absent

/-- The instance that an answer brings. -/
def Answer.instance? : Answer → Option Instance
  | viewed (.ok i) => some i
  | member (.ok m) => m.instance?
  | _ => none

/-- The bound method that an answer brings. -/
def Answer.method? : Answer → Option BoundMethod
  | bound (.ok b) => some b
  | _ => none

namespace Answer
variable {i : Instance}

theorem instance?_viewed {r : Except Error Instance} :
    (viewed r).instance? = some i ↔ r = .ok i := by
  cases r <;> simp [instance?]

theorem instance?_member {r : Except Error Member} :
    (member r).instance? = some i ↔ r = .ok (.wrapped i) := by
  rcases r with _ | _ | _ <;> simp [instance?, Member.instance?]

theorem method?_bound {r : Except Error BoundMethod} {b : BoundMethod} :
    (bound r).method? = some b ↔ r = .ok b := by
  cases r <;> simp [method?]

end Answer

namespace Types

/-- A registry answers. -/
def answer (t : Types) : Ask → Answer × Types
  | .add name layout override =>
    match t.add name layout override with
    | .ok (layout, t) => (.added (.ok layout), t)
    | .error e => (.added (.error e), t)
  | .setDefault converter => (.done, t.setDefaultConverter converter)
  | .lookUp name => (.found (t.get? name), t)
  | .view name p => (.viewed (t.view name p), t)
  | .convert converter v => (.member (t.convert converter v), t)

end Types

/-- An instance answers; its converters ask the registry. -/
def Instance.answer (i : Instance) (t : Types) : Use → Answer
  | .get m field => .member (i.get m t field)
  | .set m field v => .stored (i.set m field v)
  | .method resolve name =>
    .bound (i.method (fun spec (_ : Unit) => (resolve spec, ())) (fun _ s => s) name ()).1
  | .virtualMethod m name => .bound (i.virtualMethod m name)

/-! ### Managers -/

/-- The places that handles stand for. A new manager is at the place numbered like its handle. -/
def Request.handles (handles : List Nat) : Request → List Nat
  | create => handles ++ [handles.length]
  | clone h => handles ++ handles[h]?.toList
  | _ => handles

/-- Something with the place of the manager that it came from. -/
structure Held (α : Type) where
  content : α
  place : Nat

/-- The registries by place, the handles, and everything that came out of them. -/
structure Managers where
  registry : Nat → Types
  handles : List Nat
  instances : List (Held Instance)
  methods : List (Held BoundMethod)

/-- A registry after a request, which concerns it if it is asked through a handle of its place. -/
def Types.serve (t : Types) (place : Nat) (handles : List Nat) : Request → Types
  | .ask h a => if handles[h]? = some place then (t.answer a).2 else t
  | _ => t

namespace Managers

def start : Managers := ⟨fun _ => .empty, [], [], []⟩

/-- The place that a request comes to. -/
def origin (s : Managers) : Request → Option Nat
  | .ask h _ => s.handles[h]?
  | .use k _ => s.instances[k]?.map Held.place
  | .convertResult k _ => s.methods[k]?.map Held.place
  | _ => none

def reply (s : Managers) : Request → Answer
  | .create => .done
  | .clone h => s.handles[h]?.elim .absent fun _ => .done
  | .ask h a => s.handles[h]?.elim .absent fun place => ((s.registry place).answer a).1
  | .use k u => s.instances[k]?.elim .absent fun i => i.content.answer (s.registry i.place) u
  | .convertResult k v => s.methods[k]?.elim .absent fun b =>
    .member (b.content.convert (s.registry b.place) v)

/-- What a request brought, held at the place that it came to. -/
def held {α : Type} (s : Managers) (r : Request) (content : Option α) : List (Held α) :=
  (content.bind fun x => (s.origin r).map (⟨x, ·⟩)).toList

def serve (s : Managers) (r : Request) : Answer × Managers :=
  let answer := s.reply r
  (answer,
    { registry := fun place => (s.registry place).serve place s.handles r
      handles := r.handles s.handles
      instances := s.instances ++ s.held r answer.instance?
      methods := s.methods ++ s.held r answer.method? })

/-- The managers after requests. -/
def after (past : List Request) : Managers := past.foldl (fun s r => (s.serve r).2) start

theorem after_concat (past : List Request) (r : Request) :
    after (past ++ [r]) = ((after past).serve r).2 := List.foldl_append ..

end Managers

/-! ### The map that is shared -/

/-- A map from names to layouts, and the default converter. -/
structure Shared where
  layouts : String → Option TypeLayout
  converter : Option String

namespace Shared

def empty : Shared := ⟨fun _ => none, none⟩

def view (m : Shared) (name : String) (p : Address) : Except Error Instance :=
  match m.layouts name with
  | some layout => .ok ⟨p, layout, .registry⟩
  | none => .error (.unknownMember "TypeManager" name)

/-- An address that is not null becomes an instance where a converter applies. -/
def convert (m : Shared) (converter : Option String) (v : Value) : Except Error Member :=
  match converter.or m.converter, v with
  | some name, .pointer p =>
    if p.isNull then .ok (.value v) else (m.view name p).map .wrapped
  | _, _ => .ok (.value v)

/-- Only a layout that is added, or the default converter, changes the map. A layout that is there
    is replaced on demand only. -/
def answer (m : Shared) : Ask → Answer × Shared
  | .add name layout override =>
    if (m.layouts name).isSome ∧ override = false then (.added (.error (.duplicateType name)), m)
    else
      (.added (.ok { layout with name }),
        { m with layouts := Function.update m.layouts name (some { layout with name }) })
  | .setDefault converter => (.done, { m with converter })
  | .lookUp name => (.found (m.layouts name), m)
  | .view name p => (.viewed (m.view name p), m)
  | .convert converter v => (.member (m.convert converter v), m)

/-- An instance answers from its own layout. The map is asked for converters alone. -/
def use (m : Shared) (i : Instance) : Use → Answer
  | .get memory field => .member do
    let a ← i.field field
    if !a.access.readable then throw (.attributeAccess field false)
    m.convert a.converter (← i.load memory a)
  | u => i.answer .empty u

/-- A request through a handle of the place is answered by the map, and no other changes it. -/
def serve (m : Shared) (place : Nat) (handles : List Nat) : Request → Shared
  | .ask h a => if handles[h]? = some place then (m.answer a).2 else m
  | _ => m

/-- The handles after requests, and the map that is at a place. -/
def history (place : Nat) (past : List Request) : List Nat × Shared :=
  past.foldl (fun (handles, m) r => (r.handles handles, m.serve place handles r)) ([], empty)

/-- The map at a place after requests. -/
def after (place : Nat) (past : List Request) : Shared := (history place past).2

theorem after_concat (place : Nat) (past : List Request) (r : Request) :
    after place (past ++ [r]) =
      (after place past).serve place (history place past).1 r := by
  rw [after, history, List.foldl_append]
  rfl

end Shared

/-- What is answered where the maps at all places are known. -/
def Managers.expected (s : Managers) (map : Nat → Shared) : Request → Answer
  | .create => .done
  | .clone h => s.handles[h]?.elim .absent fun _ => .done
  | .ask h a => s.handles[h]?.elim .absent fun place => ((map place).answer a).1
  | .use k u => s.instances[k]?.elim .absent fun i => (map i.place).use i.content u
  | .convertResult k v => s.methods[k]?.elim .absent fun b =>
    .member <| b.content.conversion.elim (.ok (.value v)) fun c => (map b.place).convert c.2 v

/-! ### Registries show their maps -/

namespace Types

/-- What a registry shows. -/
def shared (t : Types) : Shared := ⟨t.get?, t.defaultConverter⟩

theorem view_eq (t : Types) (name : String) (p : Address) :
    t.view name p = t.shared.view name p := by
  simp only [Types.view, Types.layout, Shared.view, shared]
  cases t.get? name <;> rfl

theorem convert_eq (t : Types) (converter : Option String) (v : Value) :
    t.convert converter v = t.shared.convert converter v := by
  simp only [Types.convert, Shared.convert, view_eq]
  rfl

/-- A layout that is added is seen under its name and nowhere else. -/
theorem shared_insert (t : Types) (name : String) (l : TypeLayout) :
    shared { t with layouts := t.layouts.insert name l } =
      { t.shared with layouts := Function.update t.shared.layouts name (some l) } := by
  refine congrArg (Shared.mk · t.defaultConverter) (funext fun other => ?_)
  rw [Function.update_apply]
  exact Dict.find?_insert t.layouts name other l

/-- A registry answers as the map that it shows, and it shows the changed map then. -/
theorem answer_eq (t : Types) (a : Ask) :
    (t.answer a).1 = (t.shared.answer a).1 ∧ (t.answer a).2.shared = (t.shared.answer a).2 := by
  cases a with
  | add name layout override =>
    by_cases hthere : (t.shared.layouts name).isSome ∧ override = false
    · have hadd : t.add name layout override = .error (.duplicateType name) := by
        refine if_pos ?_
        rw [hthere.2]
        exact hthere.1
      simp only [answer, hadd, Shared.answer, if_pos hthere, and_self]
    · have hadd : t.add name layout override = .ok ({ layout with name },
          { t with layouts := t.layouts.insert name { layout with name } }) := by
        refine if_neg fun h => hthere ?_
        simpa [shared, get?, and_comm] using h
      simp only [answer, hadd, Shared.answer, if_neg hthere, shared_insert, and_self]
  | setDefault converter => exact ⟨rfl, rfl⟩
  | lookUp name => exact ⟨rfl, rfl⟩
  | view name p => exact ⟨congrArg Answer.viewed (t.view_eq name p), rfl⟩
  | convert converter v => exact ⟨congrArg Answer.member (t.convert_eq converter v), rfl⟩

end Types

theorem Types.method?_answer (t : Types) (a : Ask) : (t.answer a).1.method? = none := by
  cases a with
  | add name layout override =>
    simp only [answer]
    split <;> rfl
  | _ => rfl

/-- A bound method looks for converters where the instance does. -/
theorem Instance.conversion_of_answer {i : Instance} {t : Types} {u : Use} {b : BoundMethod}
    (h : (i.answer t u).method? = some b) :
    ∃ converter, b.conversion = some (i.scope, converter) := by
  cases u with
  | get m field => cases h
  | set m field v => cases h
  | method resolve name =>
    have h := Answer.method?_bound.1 h
    simp only [Instance.method] at h
    cases hspec : i.layout.functions.find? name with
    | none =>
      rw [hspec] at h
      cases h
    | some spec =>
      cases hresolve : resolve spec with
      | error e =>
        simp only [hspec, hresolve] at h
        cases h
      | ok f =>
        simp only [hspec, hresolve] at h
        cases h
        exact ⟨spec.converter, rfl⟩
  | virtualMethod m name =>
    have h := Answer.method?_bound.1 h
    unfold Instance.virtualMethod at h
    split at h
    · cases h
    · rename_i spec _
      obtain ⟨address, -, rfl⟩ := Except.map_eq_ok_iff.1 h
      exact ⟨spec.converter, rfl⟩

/-- An instance with a registry answers by its layout and by the map of the registry. -/
theorem Instance.answer_eq {i : Instance} (h : i.scope = .registry) (t : Types) (u : Use) :
    i.answer t u = t.shared.use i u := by
  cases u with
  | get m field =>
    refine congrArg Answer.member ?_
    simp only [Instance.get, h, Scope.types, Types.convert_eq]
  | set m field v => rfl
  | method resolve name => rfl
  | virtualMethod m name => rfl

/-! ### Instances keep what the map gave -/

namespace Shared
variable {m : Shared}

/-- Every layout is named by its key. -/
def Named (m : Shared) : Prop := ∀ name l, m.layouts name = some l → l.name = name

theorem Named.answer (h : m.Named) (a : Ask) : (m.answer a).2.Named := by
  cases a with
  | add name layout override =>
    intro other l hl
    simp only [Shared.answer] at hl
    split at hl
    · exact h other l hl
    · dsimp only at hl
      rw [Function.update_apply] at hl
      split at hl
      · rename_i hname
        cases hl
        exact hname.symm
      · exact h other l hl
  | _ => exact h

theorem after_named (place : Nat) (past : List Request) : (after place past).Named := by
  induction past using List.reverseRecOn with
  | nil => exact nofun
  | append_singleton past r ih =>
    rw [after_concat]
    cases r with
    | ask h a =>
      simp only [serve]
      split
      · exact ih.answer a
      · exact ih
    | _ => exact ih

/-- The instance has the layout that the map has under the layout's name. -/
structure Gives (m : Shared) (i : Instance) : Prop where
  scope : i.scope = .registry
  layout : m.layouts i.layout.name = some i.layout

theorem Named.view (h : m.Named) {name : String} {p : Address} {i : Instance}
    (hi : m.view name p = .ok i) : m.Gives i := by
  unfold Shared.view at hi
  split at hi
  · rename_i l hl
    cases hi
    exact ⟨rfl, (h name l hl).symm ▸ hl⟩
  · cases hi

theorem Named.convert (h : m.Named) {converter : Option String} {v : Value} {i : Instance}
    (hi : m.convert converter v = .ok (.wrapped i)) : m.Gives i := by
  unfold Shared.convert at hi
  split at hi
  · rename_i name p _
    split at hi
    · cases hi
    · obtain ⟨j, hview, hj⟩ := Except.map_eq_ok_iff.1 hi
      cases hj
      exact h.view hview
  · cases hi

/-- What an answer of the map brings has its layout from the map. -/
theorem Named.gives_answer (h : m.Named) {a : Ask} {i : Instance}
    (hi : (m.answer a).1.instance? = some i) : m.Gives i := by
  cases a with
  | add name layout override =>
    simp only [Shared.answer] at hi
    split at hi <;> cases hi
  | setDefault converter => cases hi
  | lookUp name => cases hi
  | view name p => exact h.view (Answer.instance?_viewed.1 hi)
  | convert converter v => exact h.convert (Answer.instance?_member.1 hi)

/-- So has what an instance brings, whose own layout may be an older one. -/
theorem Named.gives_use (h : m.Named) {i j : Instance} {u : Use}
    (hj : (m.use i u).instance? = some j) : m.Gives j := by
  cases u with
  | get memory field =>
    obtain ⟨a, -, hj⟩ := Except.bind_eq_ok_iff.1 (Answer.instance?_member.1 hj)
    cases hreadable : a.access.readable with
    | false =>
      rw [hreadable] at hj
      cases hj
    | true =>
      rw [hreadable] at hj
      obtain ⟨v, -, hj⟩ := Except.bind_eq_ok_iff.1 hj
      exact h.convert hj
  | set memory field v => cases hj
  | method resolve name => cases hj
  | virtualMethod memory name => cases hj

end Shared

/-! ### Handles -/

/-- What a request does to the places that handles stand for. A manager that is created has a place
    that no handle stands for yet, a clone stands for the place of its source, and no other request
    makes a handle. -/
inductive Hands (handles : List Nat) : Request → List Nat → Prop
  | create {place : Nat} (hnew : place ∉ handles) : Hands handles .create (handles ++ [place])
  | clone {h place : Nat} (hsource : handles[h]? = some place) :
      Hands handles (.clone h) (handles ++ [place])
  | absent {h : Nat} (hsource : handles[h]? = none) : Hands handles (.clone h) handles
  | ask {h : Nat} {a : Ask} : Hands handles (.ask h a) handles
  | use {k : Nat} {u : Use} : Hands handles (.use k u) handles
  | convertResult {k : Nat} {v : Value} : Hands handles (.convertResult k v) handles

/-- The second handle comes from the first, which was created: it is this handle, or a clone of one
    that comes from it. -/
inductive Descends : List Request → Nat → Nat → Prop
  | created {past earlier : List Request} (hpast : earlier ++ [.create] <+: past) :
      Descends past (Managers.after earlier).handles.length (Managers.after earlier).handles.length
  | cloned {past earlier : List Request} {c h : Nat} (hpast : earlier ++ [.clone h] <+: past)
      (hsource : Descends earlier c h) :
      Descends past c (Managers.after earlier).handles.length

section
variable {past : List Request} {r : Request} {c h place : Nat}

theorem Descends.mono (hc : Descends past c h) (future : List Request) :
    Descends (past ++ future) c h := by
  cases hc with
  | created hpast => exact .created (hpast.trans (List.prefix_append ..))
  | cloned hpast hsource => exact .cloned (hpast.trans (List.prefix_append ..)) hsource

theorem descends_concat_iff :
    Descends (past ++ [r]) c h ↔ Descends past c h ∨ h = (Managers.after past).handles.length ∧
      (r = .create ∧ c = h ∨ ∃ k, r = .clone k ∧ Descends past c k) := by
  constructor
  · rintro (hpast | ⟨hpast, hsource⟩)
    · rcases List.prefix_concat_iff.1 hpast with he | hpast
      · obtain ⟨rfl, hr⟩ := List.append_inj' he rfl
        cases hr
        exact .inr ⟨rfl, .inl ⟨rfl, rfl⟩⟩
      · exact .inl (.created hpast)
    · rcases List.prefix_concat_iff.1 hpast with he | hpast
      · obtain ⟨rfl, hr⟩ := List.append_inj' he rfl
        cases hr
        exact .inr ⟨rfl, .inr ⟨_, rfl, hsource⟩⟩
      · exact .inl (.cloned hpast hsource)
  · rintro (hc | ⟨rfl, ⟨rfl, rfl⟩ | ⟨k, rfl, hsource⟩⟩)
    · exact hc.mono [r]
    · exact .created List.prefix_rfl
    · exact .cloned List.prefix_rfl hsource

theorem getElem?_append_toList_iff {α : Type} {xs : List α} {o : Option α} {i : Nat} {x : α} :
    (xs ++ o.toList)[i]? = some x ↔ xs[i]? = some x ∨ i = xs.length ∧ o = some x := by
  rw [List.getElem?_append]
  split
  · rename_i hi
    simp [Nat.ne_of_lt hi]
  · rename_i hi
    have hnone : xs[i]? = none := List.getElem?_eq_none (Nat.le_of_not_lt hi)
    cases o with
    | none => simp [hnone]
    | some y =>
      rw [Option.toList_some, List.getElem?_singleton, hnone]
      split
      · rename_i hzero
        simp [show i = xs.length by omega]
      · rename_i hpos
        simp [show i ≠ xs.length by omega]

namespace Managers

/-- A handle stands for the place of the created one that it comes from, so handles share a place
    just when they come from the same one. -/
theorem getElem?_handles_iff : (after past).handles[h]? = some c ↔ Descends past c h := by
  induction past using List.reverseRecOn generalizing c h with
  | nil =>
    constructor
    · rintro ⟨⟩
    · rintro (hpast | ⟨hpast, -⟩) <;> simp at hpast
  | append_singleton past r ih =>
    rw [after_concat, descends_concat_iff, ← ih]
    cases r with
    | create =>
      have hlast : ((after past).serve .create).2.handles =
          (after past).handles ++ (some (after past).handles.length).toList := rfl
      rw [hlast, getElem?_append_toList_iff]
      refine or_congr_right (and_congr_right fun hh => ?_)
      simp [hh, eq_comm]
    | clone k =>
      have hlast : ((after past).serve (.clone k)).2.handles =
          (after past).handles ++ (after past).handles[k]?.toList := rfl
      rw [hlast, getElem?_append_toList_iff]
      simp [← ih]
    | ask | use | convertResult => simp [serve, Request.handles]

end Managers

end

/-! ### Runs -/

/-- The place that a request comes to: that of its handle, or of what it uses. -/
inductive Managers.ComesTo (s : Managers) : Request → Nat → Prop
  | ask {h place : Nat} {a : Ask} (hplace : s.handles[h]? = some place) : ComesTo s (.ask h a) place
  | use {k : Nat} {i : Held Instance} {u : Use} (hi : s.instances[k]? = some i) :
      ComesTo s (.use k u) i.place
  | convertResult {k : Nat} {b : Held BoundMethod} {v : Value} (hb : s.methods[k]? = some b) :
      ComesTo s (.convertResult k v) b.place

/-- The instance with the number was brought by one of the requests that came to its place, with
    the layout that the map there had under the layout's name at that time. -/
def Brought (past : List Request) (k : Nat) (i : Held Instance) : Prop :=
  ∃ earlier r, earlier ++ [r] <+: past ∧ (Managers.after earlier).instances.length = k ∧
    (Managers.after earlier).ComesTo r i.place ∧
    ((Managers.after earlier).serve r).1.instance? = some i.content ∧
    (Shared.after i.place earlier).layouts i.content.layout.name = some i.content.layout

/-- The bound method with the number was brought by one of the requests that came to its place. -/
def Bound (past : List Request) (k : Nat) (b : Held BoundMethod) : Prop :=
  ∃ earlier r, earlier ++ [r] <+: past ∧ (Managers.after earlier).methods.length = k ∧
    (Managers.after earlier).ComesTo r b.place ∧
    ((Managers.after earlier).serve r).1.method? = some b.content

section
variable {past : List Request} {k : Nat}

theorem Brought.mono {i : Held Instance} (h : Brought past k i) (future : List Request) :
    Brought (past ++ future) k i := by
  obtain ⟨earlier, r, hpast, h⟩ := h
  exact ⟨earlier, r, hpast.trans (List.prefix_append ..), h⟩

theorem Bound.mono {b : Held BoundMethod} (h : Bound past k b) (future : List Request) :
    Bound (past ++ future) k b := by
  obtain ⟨earlier, r, hpast, h⟩ := h
  exact ⟨earlier, r, hpast.trans (List.prefix_append ..), h⟩

end

/-- Managers after requests as the maps tell them. -/
structure Managers.Tells (s : Managers) (past : List Request) : Prop where
  run : s = .after past
  handles : ∀ place, (Shared.history place past).1 = s.handles
  registries : ∀ place, (s.registry place).shared = Shared.after place past
  scopes : ∀ i ∈ s.instances, i.content.scope = .registry
  conversions : ∀ b ∈ s.methods, ∃ converter, b.content.conversion = some (.registry, converter)
  brought : ∀ k i, s.instances[k]? = some i → Brought past k i
  bound : ∀ k b, s.methods[k]? = some b → Bound past k b

namespace Managers
variable {s : Managers} {past : List Request}

theorem Tells.reply_eq (h : s.Tells past) (r : Request) :
    s.reply r = s.expected (fun place => Shared.after place past) r := by
  cases r with
  | create => rfl
  | clone k => rfl
  | ask k a =>
    simp only [reply, expected, ← h.registries]
    cases s.handles[k]? with
    | none => rfl
    | some place => exact ((s.registry place).answer_eq a).1
  | use k u =>
    simp only [reply, expected, ← h.registries]
    cases hi : s.instances[k]? with
    | none => rfl
    | some i => exact Instance.answer_eq (h.scopes i (List.mem_of_getElem? hi)) _ u
  | convertResult k v =>
    simp only [reply, expected, ← h.registries]
    cases hb : s.methods[k]? with
    | none => rfl
    | some b =>
      obtain ⟨converter, hconverter⟩ := h.conversions b (List.mem_of_getElem? hb)
      simp only [Option.elim_some, BoundMethod.convert, hconverter, Scope.types, Types.convert_eq]

/-- An instance that a request brings has its layout from the map at the place of the request. -/
theorem Tells.gives (h : s.Tells past) {r : Request} {i : Instance}
    (hi : (s.reply r).instance? = some i) {place : Nat} (hplace : s.origin r = some place) :
    (Shared.after place past).Gives i := by
  have hnamed := fun place => Shared.after_named place past
  rw [h.reply_eq] at hi
  cases r with
  | create => cases hi
  | clone k => cases hplace
  | ask k a =>
    simp only [origin] at hplace
    simp only [expected, hplace] at hi
    exact (hnamed place).gives_answer hi
  | use k u =>
    simp only [origin, Option.map_eq_some_iff] at hplace
    obtain ⟨j, hj, rfl⟩ := hplace
    simp only [expected, hj] at hi
    exact (hnamed j.place).gives_use hi
  | convertResult k v =>
    simp only [origin, Option.map_eq_some_iff] at hplace
    obtain ⟨b, hb, rfl⟩ := hplace
    obtain ⟨converter, hconverter⟩ := h.conversions b (List.mem_of_getElem? hb)
    simp only [expected, hb, Option.elim_some] at hi
    rw [hconverter] at hi
    exact (hnamed b.place).convert (Answer.instance?_member.1 hi)

/-- A method that a request brings looks for converters in the registry. -/
theorem Tells.method (h : s.Tells past) {r : Request} {b : BoundMethod}
    (hb : (s.reply r).method? = some b) :
    ∃ converter, b.conversion = some (.registry, converter) := by
  cases r with
  | create => cases hb
  | clone k =>
    simp only [reply] at hb
    generalize s.handles[k]? = place at hb
    cases place <;> cases hb
  | ask k a =>
    simp only [reply] at hb
    cases hplace : s.handles[k]? with
    | none =>
      rw [hplace] at hb
      cases hb
    | some place =>
      rw [hplace] at hb
      cases (s.registry place).method?_answer a ▸ hb
  | use k u =>
    simp only [reply] at hb
    cases hi : s.instances[k]? with
    | none =>
      rw [hi] at hb
      cases hb
    | some i =>
      rw [hi] at hb
      rw [← h.scopes i (List.mem_of_getElem? hi)]
      exact Instance.conversion_of_answer hb
  | convertResult k v =>
    simp only [reply] at hb
    generalize s.methods[k]? = method at hb
    cases method <;> cases hb

theorem comesTo_of_origin {r : Request} {place : Nat} (h : s.origin r = some place) :
    s.ComesTo r place := by
  cases r with
  | create => cases h
  | clone k => cases h
  | ask k a => exact .ask h
  | use k u =>
    obtain ⟨i, hi, rfl⟩ := Option.map_eq_some_iff.1 h
    exact .use hi
  | convertResult k v =>
    obtain ⟨b, hb, rfl⟩ := Option.map_eq_some_iff.1 h
    exact .convertResult hb

/-- What is held after a request was held before, or is what the request brought, and then the last
    and at the place that the request came to. -/
theorem getElem?_append_held {α : Type} {xs : List (Held α)} {r : Request} {content : Option α}
    {k : Nat} {x : Held α} (h : (xs ++ s.held r content)[k]? = some x) :
    xs[k]? = some x ∨ xs.length = k ∧ content = some x.content ∧ s.origin r = some x.place := by
  rcases getElem?_append_toList_iff.1 h with hold | ⟨rfl, hnew⟩
  · exact .inl hold
  · obtain ⟨_, hcontent, hnew⟩ := Option.bind_eq_some_iff.1 hnew
    obtain ⟨_, hplace, rfl⟩ := Option.map_eq_some_iff.1 hnew
    exact .inr ⟨rfl, hcontent, hplace⟩

theorem registry_serve (s : Managers) (r : Request) (place : Nat) :
    ((s.serve r).2.registry place).shared =
      (s.registry place).shared.serve place s.handles r := by
  cases r with
  | ask k a =>
    simp only [serve, Types.serve, Shared.serve]
    split
    · exact ((s.registry place).answer_eq a).2
    · rfl
  | _ => rfl

theorem Tells.serve (h : s.Tells past) (r : Request) : (s.serve r).2.Tells (past ++ [r]) where
  run := by rw [after_concat, ← h.run]
  handles place := by
    rw [Shared.history, List.foldl_append]
    exact congrArg r.handles (h.handles place)
  registries place := by
    rw [registry_serve, h.registries, Shared.after_concat, h.handles]
  scopes i hi := by
    obtain ⟨k, hk⟩ := List.mem_iff_getElem?.1 hi
    rcases getElem?_append_held hk with hold | ⟨-, hcontent, hplace⟩
    · exact h.scopes i (List.mem_of_getElem? hold)
    · exact (h.gives hcontent hplace).scope
  conversions b hb := by
    obtain ⟨k, hk⟩ := List.mem_iff_getElem?.1 hb
    rcases getElem?_append_held hk with hold | ⟨-, hcontent, -⟩
    · exact h.conversions b (List.mem_of_getElem? hold)
    · exact h.method hcontent
  brought k i hi := by
    rcases getElem?_append_held hi with hold | ⟨rfl, hcontent, hplace⟩
    · exact (h.brought k i hold).mono [r]
    · have hlayout := (h.gives hcontent hplace).layout
      obtain rfl := h.run
      exact ⟨past, r, List.prefix_rfl, rfl, comesTo_of_origin hplace, hcontent, hlayout⟩
  bound k b hb := by
    rcases getElem?_append_held hb with hold | ⟨rfl, hcontent, hplace⟩
    · exact (h.bound k b hold).mono [r]
    · obtain rfl := h.run
      exact ⟨past, r, List.prefix_rfl, rfl, comesTo_of_origin hplace, hcontent⟩

theorem after_tells (past : List Request) : (after past).Tells past := by
  induction past using List.reverseRecOn with
  | nil =>
    refine ⟨rfl, fun _ => rfl, fun _ => rfl, nofun, nofun, fun _ _ h => ?_, fun _ _ h => ?_⟩
    · cases h
    · cases h
  | append_singleton past r ih =>
    rw [after_concat]
    exact ih.serve r

/-- Nothing that came out of managers is taken back or changed. -/
theorem after_beginning (past future : List Request) :
    (after past).handles <+: (after (past ++ future)).handles ∧
      (after past).instances <+: (after (past ++ future)).instances ∧
      (after past).methods <+: (after (past ++ future)).methods := by
  induction future using List.reverseRecOn with
  | nil =>
    rw [List.append_nil]
    exact ⟨List.prefix_rfl, List.prefix_rfl, List.prefix_rfl⟩
  | append_singleton future r ih =>
    obtain ⟨hhandles, hinstances, hmethods⟩ := ih
    rw [← List.append_assoc, after_concat]
    refine ⟨hhandles.trans ?_, hinstances.trans (List.prefix_append ..),
      hmethods.trans (List.prefix_append ..)⟩
    cases r with
    | create => exact List.prefix_append ..
    | clone k => exact List.prefix_append ..
    | _ => exact List.prefix_rfl

theorem lt_of_mem_handles {past : List Request} {place : Nat} (h : place ∈ (after past).handles) :
    place < (after past).handles.length := by
  induction past using List.reverseRecOn with
  | nil => cases h
  | append_singleton past r ih =>
    rw [after_concat] at h ⊢
    have hold : place ∈ (after past).handles →
        place < ((after past).serve r).2.handles.length := fun h =>
      Nat.lt_of_lt_of_le (ih h) ((after_concat past r) ▸ (after_beginning past [r]).1.length_le)
    cases r with
    | create =>
      rcases List.mem_append.1 h with h | h
      · exact hold h
      · obtain rfl := List.mem_singleton.1 h
        simp [serve, Request.handles]
    | clone k =>
      rcases List.mem_append.1 h with h | h
      · exact hold h
      · exact hold (List.mem_of_getElem? (Option.mem_toList.1 h))
    | _ => exact hold h

/-- Every request does to the handles what it should. -/
theorem hands_serve (past : List Request) (r : Request) :
    Hands (after past).handles r ((after past).serve r).2.handles := by
  cases r with
  | create => exact .create fun h => Nat.lt_irrefl _ (lt_of_mem_handles h)
  | clone k =>
    simp only [serve, Request.handles]
    cases hk : (after past).handles[k]? with
    | none =>
      rw [Option.toList_none, List.append_nil]
      exact .absent hk
    | some place => exact .clone hk
  | ask k a => exact .ask
  | use k u => exact .use
  | convertResult k v => exact .convertResult

/-- Where no handle stands for a place, nothing is registered there. -/
theorem registry_of_not_mem_handles {past : List Request} {place : Nat}
    (h : place ∉ (after past).handles) : (after past).registry place = .empty := by
  induction past using List.reverseRecOn with
  | nil => rfl
  | append_singleton past r ih =>
    have hearlier : place ∉ (after past).handles := fun hmem =>
      h ((after_beginning past [r]).1.subset hmem)
    rw [after_concat]
    cases r with
    | ask k a =>
      have hother : ¬ (after past).handles[k]? = some place := fun hk =>
        hearlier (List.mem_of_getElem? hk)
      simp only [serve, Types.serve, if_neg hother]
      exact ih hearlier
    | _ => exact ih hearlier

end Managers

/-! ### Configurations -/

/-- Entries of different names that a registry does not have are all registered, each with its name
    as that of the layout. -/
theorem Types.foldlM_add {es : List (String × TypeLayout)} (hes : es.Pairwise fun a b => a.1 < b.1)
    (t : Types) (hnew : ∀ e ∈ es, t.get? e.1 = none) :
    ∃ t', es.foldlM (fun t e => (t.add e.1 e.2 false).map (·.2)) t = .ok t' ∧
      t'.defaultConverter = t.defaultConverter ∧
      ∀ name, t'.get? name = ((es.lookup name).map fun l => { l with name }).or (t.get? name) := by
  induction es generalizing t with
  | nil => exact ⟨t, rfl, rfl, fun _ => rfl⟩
  | cons e es ih =>
    obtain ⟨hfirst, hrest⟩ := List.pairwise_cons.1 hes
    have hfree : t.get? e.1 = none := hnew e List.mem_cons_self
    have hadd : (t.add e.1 e.2 false).map (·.2) =
        .ok { t with layouts := t.layouts.insert e.1 { e.2 with name := e.1 } } := by
      have : (t.layouts.find? e.1).isSome = false := by
        rw [Option.isSome_eq_false_iff, Option.isNone_iff_eq_none]
        exact hfree
      simp only [add, this, Bool.and_false]
      rfl
    obtain ⟨t', hfold, hconverter, hlayouts⟩ := ih hrest
      { t with layouts := t.layouts.insert e.1 { e.2 with name := e.1 } } fun a ha => by
        have hne : a.1 ≠ e.1 := fun h => String.lt_irrefl _ (h ▸ hfirst a ha)
        rw [get?, Dict.find?_insert, if_neg hne]
        exact hnew a (List.mem_cons_of_mem _ ha)
    refine ⟨t', ?_, hconverter, fun name => ?_⟩
    · rw [List.foldlM_cons, hadd]
      exact hfold
    · rw [hlayouts, Dict.lookup_cons_eq, get?, Dict.find?_insert]
      by_cases hname : name = e.1
      · have hlater : es.lookup name = none := by
          rw [List.lookup_eq_none_iff]
          intro a ha
          rw [hname, bne_iff_ne]
          exact fun h => String.lt_irrefl _ (h ▸ hfirst a ha)
        rw [if_pos hname, if_pos hname, hlater, hname]
        rfl
      · rw [if_neg hname, if_neg hname]
        rfl

/-- Managers behind handles that may be cloned, and the instances made through them.

    Handles stand for the same place just when they come from the same created handle: a clone
    stands for the place of its source, and a new manager has a place of its own, where nothing is
    registered. Whatever was asked of managers, the registry at a place shows the map that the
    requests through handles of the place have made, whichever handles these were, and every request
    is answered by the map at its place and by the layouts of the instances. An instance has the
    layout that the map had for it at the request that brought it, and it and the methods that are
    bound stay with the place that their request came to; later requests leave them as they are. The
    registry of a configuration can always be made, and it has the layouts of the configuration,
    each named by its key. -/
theorem managers_share_maps (past future : List Request) (r : Request) (c : Config) :
    let s := Managers.after past
    let s' := Managers.after (past ++ future)
    (∀ h place, s.handles[h]? = some place ↔ Descends past place h) ∧
    Hands s.handles r (s.serve r).2.handles ∧
    (∀ place, place ∉ s.handles → s.registry place = .empty) ∧
    (∀ place, (s.registry place).shared = Shared.after place past) ∧
    (s.serve r).1 = s.expected (fun place => Shared.after place past) r ∧
    (s.handles <+: s'.handles ∧ s.instances <+: s'.instances ∧ s.methods <+: s'.methods) ∧
    (∀ k i, s.instances[k]? = some i → Brought past k i) ∧
    (∀ k b, s.methods[k]? = some b → Bound past k b) ∧
    ∃ t, c.registry = .ok t ∧ t.defaultConverter = none ∧
      ∀ name, t.get? name = (c.types.find? name).map fun l => { l with name } := by
  have h := Managers.after_tells past
  obtain ⟨t, hregistry, hconverter, hlayouts⟩ :=
    Types.foldlM_add c.types.ordered .empty fun _ _ => rfl
  refine ⟨fun _ _ => Managers.getElem?_handles_iff, Managers.hands_serve past r,
    fun _ hplace => Managers.registry_of_not_mem_handles hplace, h.registries, h.reply_eq r,
    Managers.after_beginning past future, h.brought, h.bound, t, hregistry, hconverter,
    fun name => ?_⟩
  rw [hlayouts]
  exact Option.or_none ..

end NativeGate.Layout
