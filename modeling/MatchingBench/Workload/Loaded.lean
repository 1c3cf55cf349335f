import MatchingBench.Adapters
import MatchingBench.Harness.Contract
import MatchingBench.Workload.Lifetimes

/-!
# Generated workloads, loaded

What the harness holds once `load_workload` has read a generated workload: as
many messages as were written, each with a type, a side and an identifier in
range, and all of them legal when their prices are allowed.
-/

set_option autoImplicit false

namespace MatchingBench.Workload.Loaded

open MatchingBench.Adapters (Flagged NewIds lots)
open MatchingBench.Reference (LegalRun)
open MatchingBench.Harness.Marshalling
open MatchingBench.Workload.Arrivals
open MatchingBench.Workload.File
open MatchingBench.Workload.Generator
open MatchingBench.Workload.Lifetimes
open MatchingBench.Workload.Structure

/-! ## Generated messages -/

/-- The fields of a generated message. -/
structure WellFormed (count : Nat) (m : Msg) : Prop where
  typed : m.type ≤ 2
  sided : m.side = 0 ∨ m.side = 1
  named : m.orderId.toNat ≤ count
  flagged : m.ioc = 0 ∨ m.ioc = 1
  few : m.qty.toNat ≤ 101

section Generated

variable (num : Numerics) (request : Request) (stream : Nat → Uniform)

theorem generated_wellFormed
    {m : Msg} (member : m ∈ (generate num request).run stream) :
    WellFormed request.count.toNat m := by
  have structured := (emission_all num request).run stream
  have drawn := (emission_drawn num request).run stream
  rw [generate_run] at member
  obtain ⟨life, sent⟩ := structured.lifecycles
  have sentHere : untimed m ∈ messagesOf _ life _ :=
    sent ▸ List.mem_map_of_mem member
  obtain ⟨i, inOrder, located⟩ := List.mem_flatMap.mp sentHere
  have below : i < request.count.toNat :=
    List.mem_range.mp (structured.shuffled.mem_iff.mp inOrder)
  have fits := request.count.toNat_lt
  have own := drawn (((emission num request).run stream).news.getD i default)
    (by
      rw [← structured.placed] at below
      rw [List.getD_eq_getElem?_getD, List.getElem?_eq_getElem below]
      exact List.getElem_mem below)
  have named : (untimed m).orderId = UInt64.ofNat (i + 1) :=
    orderId_messages located
  obtain ⟨before, after, split⟩ := List.append_of_mem located
  have within := within_messages (life i) split
  generalize ((emission num request).run stream).news.getD i default = n
    at own within
  have most := own.most
  have more : (n.qty + 1).toNat ≤ 101 := by
    rw [UInt32.toNat_add, show (1 : UInt32).toNat = 1 from rfl]
    omega
  have fields :
      (untimed m).type ≤ 2 ∧ (untimed m).side = n.side ∧
        ((untimed m).ioc = 0 ∨ (untimed m).ioc = 1) ∧
        (untimed m).qty.toNat ≤ 101 := by
    have less : n.qty.toNat ≤ 101 := by omega
    generalize untimed m = g at within ⊢
    cases within with
    | new isIoc =>
        refine ⟨(by decide : msgNew ≤ 2), rfl, ?_, less⟩
        cases isIoc
        · exact Or.inl rfl
        · exact Or.inr rfl
    | modify mprice =>
        exact ⟨(by decide : msgModify ≤ 2), rfl, Or.inl rfl, more⟩
    | cancel => exact ⟨(by decide : msgCancel ≤ 2), rfl, Or.inl rfl, less⟩
    | cancelModified mprice =>
        exact ⟨(by decide : msgCancel ≤ 2), rfl, Or.inl rfl, less⟩
    | cancelAgain first =>
        exact ⟨(by decide : msgCancel ≤ 2), rfl, Or.inl rfl, less⟩
    | modifyAgain mprice modified cancelled =>
        exact ⟨(by decide : msgModify ≤ 2), rfl, Or.inl rfl, more⟩
  obtain ⟨typed, side, flagged, few⟩ := fields
  constructor
  · exact typed
  · rw [show m.side = n.side from side]
    exact own.sided
  · have id : m.orderId = UInt64.ofNat (i + 1) := named
    have small : i + 1 < 2 ^ 64 := by omega
    rw [id, UInt64.toNat_ofNat_of_lt' small]
    exact below
  · exact flagged
  · exact few

/-- Every request is for some messages. -/
theorem generated_nonempty :
    1 ≤ ((generate num request).run stream).length := by
  have enough := request.enough
  have every := count_le_length num request stream
  omega

end Generated

/-! ## The loaded workload -/

/-- The engine is handed the same tape from the loaded workload. -/
theorem messagesOf_decoded (msgs : List Msg) :
    Harness.Contract.messagesOf (msgs.mapIdx decoded) = tapeOf msgs := by
  rw [Harness.Contract.messagesOf, tapeOf]
  ext1 i
  rw [List.getElem?_map, List.getElem?_mapIdx, List.getElem?_mapIdx,
    Option.map_map]
  refine congrArg (Option.map · msgs[i]?) ?_
  funext m
  rw [Function.comp_apply, handed, dispatchMsg_prepare]

/-- A generated workload as the harness loads it. -/
structure LoadedFrom (msgs : List Msg) (path : String) (workload : Workload) :
    Prop where
  loaded : loadWorkload path (some (workloadBytes msgs)) = .ok workload.msgs
  messages : Harness.Contract.messagesOf workload.msgs = tapeOf msgs
  fields : ∀ m ∈ workload.msgs, ∃ g ∈ msgs,
    m.side = g.side ∧ m.priceTicks = g.priceTicks

section Loading

variable (num : Numerics) (request : Request) (stream : Nat → Uniform)

theorem exists_loadedFrom
    (capped : ((generate num request).run stream).length ≤ workloadMax)
    (path : String) :
    ∃ workload,
      LoadedFrom ((generate num request).run stream) path workload := by
  have wellFormed {m : Msg} (member : m ∈ (generate num request).run stream) :=
    generated_wellFormed num request stream member
  have nonempty := generated_nonempty num request stream
  generalize (generate num request).run stream = msgs
    at capped wellFormed nonempty
  have typed : ∀ m ∈ msgs.mapIdx decoded, m.type ≤ 2 := by
    intro m member
    obtain ⟨i, inside, rfl⟩ := List.mem_mapIdx.mp member
    exact (wellFormed (List.getElem_mem inside)).typed
  refine ⟨⟨msgs.mapIdx decoded, by rwa [List.length_mapIdx],
    by rwa [List.length_mapIdx], typed⟩, ?_, messagesOf_decoded msgs, ?_⟩
  · exact loadWorkload_workloadBytes nonempty capped
      (fun m member => (wellFormed member).typed) path
  · intro m member
    obtain ⟨i, inside, rfl⟩ := List.mem_mapIdx.mp member
    exact ⟨_, List.getElem_mem inside, rfl, rfl⟩

variable {num request stream}

/-- The tape of a workload with allowed prices is legal. -/
theorem legalRun_generated
    {allowed : Int64 → Prop}
    (priced : ∀ m ∈ (generate num request).run stream,
      allowed m.priceTicks) :
    LegalRun allowed (tapeOf ((generate num request).run stream)) := by
  refine legalRun_of_arranged (arranged_generate num request stream) ?_
  intro m member
  obtain ⟨seq, g, inside, rfl⟩ := mem_tapeOf member
  have permitted := priced g inside
  rw [handed, dispatchMsg_prepare, feedMsg]
  split
  · exact permitted
  · split
    · trivial
    · exact permitted

/-- The identifiers of its messages run up to their number at most. -/
theorem ids_generated
    {m : Api.Msg}
    (member : m ∈ tapeOf ((generate num request).run stream)) :
    m.orderId.toNat ≤ ((generate num request).run stream).length := by
  obtain ⟨seq, g, inside, rfl⟩ := mem_tapeOf member
  rw [orderId_handed]
  exact (generated_wellFormed num request stream inside).named.trans
    (count_le_length num request stream)

theorem newIds_generated
    {bound : Nat} (small : ((generate num request).run stream).length < bound) :
    NewIds bound (tapeOf ((generate num request).run stream)) :=
  fun _ member => Nat.lt_of_le_of_lt (ids_generated member) small

/-- Its orders ask for at most 101 lots. -/
theorem lots_generated
    {m : Api.Msg}
    (member : m ∈ tapeOf ((generate num request).run stream)) :
    Flagged m ∧ lots m ≤ 101 := by
  obtain ⟨seq, g, inside, rfl⟩ := mem_tapeOf member
  obtain ⟨-, -, -, flagged, few⟩ :=
    generated_wellFormed num request stream inside
  rw [handed, dispatchMsg_prepare, feedMsg]
  split
  · exact ⟨flagged, few⟩
  · split
    · exact ⟨trivial, Nat.zero_le _⟩
    · exact ⟨trivial, few⟩

end Loading

end MatchingBench.Workload.Loaded
