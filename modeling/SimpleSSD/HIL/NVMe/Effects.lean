import Mathlib.Logic.Relation
import SimpleSSD.HIL.NVMe.Calls
import SimpleSSD.HIL.NVMe.Initialization

namespace SimpleSSD.HIL.NVMe

open Data (Returns)

namespace Subsystem

/-! Handlers and callbacks, taken apart into what they do for one command. -/

/-- What stands at a place of a heap belongs to the command. -/
def Belongs (owner : α → Nat) (items : List (Option α)) (func place : Nat) :
    Prop :=
  place < items.length ∧
    ∀ found, items[place]? = some (some found) → owner found = func

def ioOwner (context : IOContext) : Nat := context.resp.func

def trimOwner (context : DMAContext) : Nat := context.resp.func

def Names (subsystem : Subsystem) (callback : Callback) : Prop :=
  match callback.share with
  | .alone => True
  | .reads context | .part context =>
      Belongs ioOwner subsystem.contexts callback.func context
  | .trim context => Belongs trimOwner subsystem.trims callback.func context

inductive Effect (func : Nat) (before : Subsystem) : Subsystem → Prop where
  | answers (resp : Response) (own : resp.func = func) :
      Effect func before (before.reply resp)
  | awaits (callback : Callback) (own : callback.func = func)
      (names : before.Names callback) :
      Effect func before (before.schedule callback)
  | prepares (created : IOContext) (own : ioOwner created = func) :
      Effect func before
        { before with contexts := before.contexts ++ [some created] }
  | transfers (context : Nat) (found : IOContext)
      (held : before.contexts[context]? = some (some found))
      (own : ioOwner found = func) (updated : Option IOContext)
      (kept : ∀ next ∈ updated, ioOwner next = func) :
      Effect func before (before.setContext context updated)
  | counts (created : DMAContext) (own : trimOwner created = func) :
      Effect func before
        { before with trims := before.trims ++ [some created] }
  | releases (context : Nat) (found : DMAContext)
      (held : before.trims[context]? = some (some found))
      (own : trimOwner found = func) :
      Effect func before (before.setTrim context none)
  | elsewhere {after : Subsystem} (pending : after.pending = before.pending)
      (responses : after.responses = before.responses)
      (contexts : after.contexts = before.contexts)
      (trims : after.trims = before.trims)
      (submitted : after.submitted = before.submitted) :
      Effect func before after

abbrev Effects (func : Nat) : Subsystem → Subsystem → Prop :=
  Relation.ReflTransGen (Effect func)

section

variable {cfg : ConfigData} {subsystem before after : Subsystem}
  {func place : Nat}

theorem Effects.reply (effects : Effects func before after) {resp : Response}
    (own : resp.func = func) : Effects func before (after.reply resp) :=
  effects.tail (.answers resp own)

theorem Effects.schedule (effects : Effects func before after)
    {callback : Callback} (own : callback.func = func)
    (names : after.Names callback) :
    Effects func before (after.schedule callback) :=
  effects.tail (.awaits callback own names)

theorem Effects.controller (effects : Effects func before after)
    (updated : Controller) :
    Effects func before { after with controller := updated } :=
  effects.tail (.elsewhere rfl rfl rfl rfl rfl)

/-! The admin commands. -/

/-- What a handler that may fail does, it does for its command. -/
def Serves (func : Nat) (before : Subsystem) :
    Except Fault (Bool × Subsystem) → Prop :=
  Returns (fun result => Effects func before result.2) fun _ => True

theorem Returns.any (result : Except ε α) :
    Returns (fun _ => True) (fun _ => True) result := by
  cases result <;> trivial

theorem Belongs.set {owner : α → Nat} {items : List (Option α)} {found : α}
    {other : Nat} (belongs : Belongs owner items other place) {index : Nat}
    (held : items[index]? = some (some found)) (own : owner found = func)
    {updated : Option α} (kept : ∀ next ∈ updated, owner next = func) :
    Belongs owner (items.set index updated) other place := by
  refine ⟨by rw [List.length_set]; exact belongs.1, ?_⟩
  intro next stands
  by_cases here : index = place
  · subst here
    rw [List.getElem?_set_self belongs.1] at stands
    rw [kept next (Option.some.inj stands), ← own]
    exact belongs.2 found held
  · rw [List.getElem?_set_ne here] at stands
    exact belongs.2 next stands

theorem belongs_grown {owner : α → Nat} {items : List (Option α)}
    {last : Option α} (belongs : Belongs owner items func place) :
    Belongs owner (items ++ [last]) func place := by
  refine ⟨by rw [List.length_append]; exact Nat.lt_add_right _ belongs.1, ?_⟩
  intro found held
  rw [List.getElem?_append_left belongs.1] at held
  exact belongs.2 found held

theorem Names.of_belongs {callback : Callback}
    (names : before.Names callback)
    (contexts : ∀ func place, Belongs ioOwner before.contexts func place →
      Belongs ioOwner after.contexts func place)
    (trims : ∀ func place, Belongs trimOwner before.trims func place →
      Belongs trimOwner after.trims func place) :
    after.Names callback := by
  unfold Names at names ⊢
  split
  · trivial
  · next shares =>
      rw [shares] at names
      exact contexts _ _ names
  · next shares =>
      rw [shares] at names
      exact contexts _ _ names
  · next shares =>
      rw [shares] at names
      exact trims _ _ names

theorem Effect.names {callback : Callback} (effect : Effect func before after)
    (names : before.Names callback) : after.Names callback := by
  cases effect with
  | answers => exact names
  | awaits => exact names
  | prepares created own =>
      exact names.of_belongs (fun _ _ => belongs_grown) fun _ _ same => same
  | transfers context found held own updated kept =>
      exact names.of_belongs (fun _ _ same => same.set held own kept)
        fun _ _ same => same
  | counts created own =>
      exact names.of_belongs (fun _ _ same => same) fun _ _ => belongs_grown
  | releases context found held own =>
      exact names.of_belongs (fun _ _ same => same)
        fun _ _ same => same.set held own nofun
  | elsewhere pending responses contexts trims =>
      refine names.of_belongs (fun _ _ same => ?_) fun _ _ same => ?_
      · rw [contexts]
        exact same
      · rw [trims]
        exact same

/-- Every callback that is due shares a context of its own command. -/
def Owned (subsystem : Subsystem) : Prop :=
  ∀ callback ∈ subsystem.pending, subsystem.Names callback

theorem Effect.owned (effect : Effect func before after)
    (owned : before.Owned) : after.Owned := by
  have kept : ∀ callback ∈ before.pending, after.Names callback :=
    fun callback member => effect.names (owned callback member)
  cases effect with
  | awaits callback own names =>
      intro due member
      rcases List.mem_append.mp member with old | new
      · exact kept due old
      · rw [List.mem_singleton.mp new]
        exact names
  | elsewhere pending =>
      intro due member
      rw [pending] at member
      exact kept due member
  | answers | prepares | transfers | counts | releases => exact kept

theorem held_grown {items : List (Option α)} {last : Option α} {found : α}
    (held : (items ++ [last])[place]? = some (some found)) :
    items[place]? = some (some found) ∨ last = some found := by
  rcases Nat.lt_or_ge place items.length with inside | past
  · rw [List.getElem?_append_left inside] at held
    exact .inl held
  · rw [List.getElem?_append_right past] at held
    have member := List.mem_of_getElem? held
    exact .inr (List.mem_singleton.mp member).symm

theorem held_set {items : List (Option α)} {updated : Option α} {found : α}
    {index : Nat}
    (held : (items.set index updated)[place]? = some (some found)) :
    items[place]? = some (some found) ∨ updated = some found := by
  by_cases here : index = place
  · subst here
    obtain ⟨inside, value⟩ := List.getElem?_eq_some_iff.mp held
    rw [List.getElem_set_self] at value
    exact .inr value
  · rw [List.getElem?_set_ne here] at held
    exact .inl held

/-- Only commands with numbers below the bound have work or a response. -/
structure Numbered (bound : Nat) (subsystem : Subsystem) : Prop where
  pending : ∀ callback ∈ subsystem.pending, callback.func < bound
  responses : ∀ resp ∈ subsystem.responses, resp.func < bound
  trims : ∀ (context : Nat) (found : DMAContext),
    subsystem.trims[context]? = some (some found) → trimOwner found < bound

theorem Effect.numbered {bound : Nat} (effect : Effect func before after)
    (below : func < bound) (numbered : Numbered bound before) :
    Numbered bound after := by
  obtain ⟨pending, responses, trims⟩ := numbered
  cases effect with
  | answers resp own =>
      refine ⟨pending, ?_, trims⟩
      intro answer member
      rcases List.mem_append.mp member with old | new
      · exact responses answer old
      · rw [List.mem_singleton.mp new, own]
        exact below
  | awaits callback own names =>
      refine ⟨?_, responses, trims⟩
      intro due member
      rcases List.mem_append.mp member with old | new
      · exact pending due old
      · rw [List.mem_singleton.mp new, own]
        exact below
  | prepares | transfers => exact ⟨pending, responses, trims⟩
  | counts created own =>
      refine ⟨pending, responses, ?_⟩
      intro context found held
      rcases held_grown held with old | new
      · exact trims context found old
      · cases new
        rw [own]
        exact below
  | releases context found held own =>
      refine ⟨pending, responses, ?_⟩
      intro place other stands
      exact trims place other ((held_set stands).resolve_right nofun)
  | elsewhere same answers contexts counters =>
      refine ⟨?_, ?_, ?_⟩
      · rw [same]; exact pending
      · rw [answers]; exact responses
      · rw [counters]; exact trims

structure Apart (func : Nat) (before after : Subsystem) : Prop where
  pending : after.pendingOf func = before.pendingOf func
  responses : after.repliesTo func = before.repliesTo func
  trims : ∀ (context : Nat) (found : DMAContext), trimOwner found = func →
    (after.trims[context]? = some (some found) ↔
      before.trims[context]? = some (some found))

theorem Apart.refl (func : Nat) (subsystem : Subsystem) :
    Apart func subsystem subsystem :=
  ⟨rfl, rfl, fun _ _ _ => Iff.rfl⟩

theorem Apart.trans {middle : Subsystem} (first : Apart func before middle)
    (second : Apart func middle after) : Apart func before after :=
  ⟨second.pending.trans first.pending, second.responses.trans first.responses,
    fun context found own =>
      (second.trims context found own).trans (first.trims context found own)⟩

theorem Effect.apart {other : Nat} (effect : Effect other before after)
    (different : other ≠ func) : Apart func before after := by
  cases effect with
  | answers resp own =>
      refine ⟨rfl, ?_, fun _ _ _ => Iff.rfl⟩
      rw [@repliesTo_append before _ func resp rfl,
        if_neg (by rw [own]; exact different), List.append_nil]
  | awaits callback own names =>
      refine ⟨?_, rfl, fun _ _ _ => Iff.rfl⟩
      rw [@pendingOf_append before _ func callback rfl,
        if_neg (by rw [own]; exact different), List.append_nil]
  | prepares | transfers => exact ⟨rfl, rfl, fun _ _ _ => Iff.rfl⟩
  | counts created own =>
      refine ⟨rfl, rfl, fun context found mine => ⟨fun held => ?_, getElem?_grown⟩⟩
      rcases held_grown held with old | new
      · exact old
      · cases new
        exact absurd (own.symm.trans mine) different
  | releases place found held own =>
      refine ⟨rfl, rfl, fun context mine same => ⟨fun kept => ?_, fun kept => ?_⟩⟩
      · exact (held_set kept).resolve_right nofun
      · exact @getElem?_set_other other _ trimOwner _ _ _ _ _ _ held own kept
          (by rw [same]; exact different.symm)
  | elsewhere pending responses contexts trims =>
      refine ⟨pendingOf_same pending, repliesTo_same responses, ?_⟩
      intro context found _
      rw [trims]

theorem Effect.submitted (effect : Effect func before after) :
    after.submitted = before.submitted := by
  cases effect with
  | elsewhere pending responses contexts trims submitted => exact submitted
  | _ => rfl

theorem Effects.keeps {kept : Subsystem → Prop}
    (step : ∀ before after, Effect func before after → kept before → kept after)
    (effects : Effects func before after) (holds : kept before) :
    kept after := by
  induction effects with
  | refl => exact holds
  | tail _ effect induction => exact step _ _ effect induction

theorem Effects.owned (effects : Effects func before after)
    (owned : before.Owned) : after.Owned :=
  effects.keeps (fun _ _ effect => effect.owned) owned

theorem Effects.numbered {bound : Nat} (effects : Effects func before after)
    (below : func < bound) (numbered : Numbered bound before) :
    Numbered bound after :=
  effects.keeps (fun _ _ effect => effect.numbered below) numbered

theorem Effects.submitted (effects : Effects func before after) :
    after.submitted = before.submitted :=
  effects.keeps (fun _ _ effect same => effect.submitted.trans same) rfl

theorem Effects.apart {other : Nat} (effects : Effects other before after)
    (different : other ≠ func) : Apart func before after :=
  effects.keeps (fun _ _ effect apart => apart.trans (effect.apart different))
    (.refl func before)

end

end Subsystem

end SimpleSSD.HIL.NVMe
