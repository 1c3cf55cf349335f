import MatchingBench.Workload.File
import MatchingBench.Workload.Structure

/-!
# How the messages of a workload arrive

An engine is handed the lifecycles one after the other.  So a message that
names an order follows that order's own messages, with nothing in between, and
what an order left in the book is met by later orders only.
-/

set_option autoImplicit false

namespace MatchingBench.Workload.Arrivals

open MatchingBench.Harness.Marshalling
open MatchingBench.Lib.Draws
open MatchingBench.Workload.Generator
open MatchingBench.Workload.Structure

/-! ## The tape -/

/-- The message an engine is handed for a message of the workload. -/
def handed (seq : Nat) (m : Msg) : Api.Msg :=
  dispatchMsg (prepare (File.decoded seq m))

/-- The messages an engine is handed for a workload. -/
def tapeOf (msgs : List Msg) : List Api.Msg :=
  msgs.mapIdx handed

/-- Timestamps are not handed over. -/
theorem tapeOf_untimed (msgs : List Msg) :
    tapeOf (msgs.map untimed) = tapeOf msgs := by
  unfold tapeOf
  ext1 i
  rw [List.getElem?_mapIdx, List.getElem?_mapIdx, List.getElem?_map,
    Option.map_map]
  rfl

@[simp]
theorem orderId_handed (seq : Nat) (m : Msg) :
    (handed seq m).orderId = m.orderId := by
  rw [handed, dispatchMsg_prepare, feedMsg]
  split
  · rfl
  · split <;> rfl

/-! ## What is drawn for an order -/

/-- The side and quantity of a new order of the generator. -/
structure Drawn (n : NewOrder) : Prop where
  sided : n.side = 0 ∨ n.side = 1
  some : 1 ≤ n.qty.toNat
  most : n.qty.toNat ≤ 100

theorem uniformInt_all (num : Numerics) :
    (uniformInt num 1 100).All fun qty =>
      1 ≤ qty.toNat ∧ qty.toNat ≤ 100 := by
  refine Sampler.All.ask fun u => ?_
  apply Sampler.All.done
  have below := UInt32.lt_iff_toNat_lt.mp
    (num.scaled_lt u (100 - 1 + 1) (by decide))
  rw [show (100 - 1 + 1 : UInt32).toNat = 100 from rfl] at below
  rw [UInt32.toNat_add, show (1 : UInt32).toNat = 1 from rfl]
  omega

theorem place_all
    (num : Numerics) (scenario : Scenario) (count : UInt64) (i : Nat)
    (mid : num.Mid) :
    (place num scenario count i mid).All fun result => Drawn result.2 := by
  refine Sampler.All.ask fun u1 => Sampler.All.ask fun u2 => ?_
  refine Sampler.All.ask fun lvl => ?_
  apply (uniformInt_all num).bind
  rintro qty ⟨least, most⟩
  apply Sampler.All.done
  constructor
  · dsimp only
    split
    · exact Or.inl rfl
    · exact Or.inr rfl
  · exact least
  · exact most

theorem placeAll_drawn
    (num : Numerics) (scenario : Scenario) (count : UInt64)
    (indices : List Nat) (mid : num.Mid) :
    (placeAll num scenario count indices mid).All fun news =>
      ∀ n ∈ news, Drawn n := by
  induction indices generalizing mid with
  | nil => exact Sampler.All.done fun _ member => by cases member
  | cons i later induction =>
      refine (place_all num scenario count i mid).bind fun first drawn => ?_
      refine (induction first.1).bind fun news others => ?_
      apply Sampler.All.done
      intro n member
      rcases List.mem_cons.mp member with rfl | member
      · exact drawn
      · exact others n member

/-- Every new order has a side and between 1 and 100 lots. -/
theorem emission_drawn (num : Numerics) (request : Request) :
    (emission num request).All fun e => ∀ n ∈ e.news, Drawn n := by
  refine (placeAll_drawn num _ _ _ _).bind fun news drawn => ?_
  refine (shuffle_all num _ _).bind fun order shuffled => ?_
  rw [Array.toList_range] at shuffled
  refine (expand_all num news (shuffled.symm.nodup List.nodup_range) _).bind
    fun t _ => ?_
  exact Sampler.All.done drawn

/-! ## Within a lifecycle -/

/-- How a message of a lifecycle follows those before it. -/
inductive Within (n : NewOrder) (oid : UInt64) : List Msg → Msg → Prop where
  | new (isIoc : Bool) : Within n oid [] (newMsg n oid isIoc 0)
  | modify (mprice : Int64) :
      Within n oid [newMsg n oid false 0] (modifyMsg n oid mprice 0)
  | cancel : Within n oid [newMsg n oid false 0] (cancelMsg n oid 0)
  | cancelModified (mprice : Int64) :
      Within n oid [newMsg n oid false 0, modifyMsg n oid mprice 0]
        (cancelMsg n oid 0)
  | cancelAgain {own : List Msg} (first : cancelMsg n oid 0 ∈ own) :
      Within n oid own (cancelMsg n oid 0)
  | modifyAgain {own : List Msg} (mprice : Int64)
      (modified : modifyMsg n oid mprice 0 ∈ own)
      (cancelled : cancelMsg n oid 0 ∈ own) :
      Within n oid own (modifyMsg n oid mprice 0)

section Within

variable {n : NewOrder} {oid : UInt64} {own own' : List Msg} {m : Msg}

/-- After the first cancel come its duplicate and a stale modify. -/
theorem within_cancelled
    {before : List Msg} {duplicate stale : Bool} {mprice : Int64}
    (modified : stale = true → modifyMsg n oid mprice 0 ∈ before)
    (split : ((if duplicate then [cancelMsg n oid 0] else []) ++
      stalePart n oid mprice stale) = own ++ m :: own') :
    Within n oid (before ++ cancelMsg n oid 0 :: own) m := by
  have sent : m ∈ (if duplicate then [cancelMsg n oid 0] else []) ++
      stalePart n oid mprice stale := by
    rw [split]
    exact List.mem_append_right own List.mem_cons_self
  have cancelled :
      cancelMsg n oid 0 ∈ before ++ cancelMsg n oid 0 :: own :=
    List.mem_append_right before List.mem_cons_self
  rcases List.mem_append.mp sent with again | late
  · split at again
    · rw [List.mem_singleton.mp again]
      exact Within.cancelAgain cancelled
    · cases again
  · unfold stalePart at late
    split at late
    · rename_i isStale
      rw [List.mem_singleton.mp late]
      apply Within.modifyAgain mprice _ cancelled
      exact List.mem_append_left _ (modified isStale)
    · cases late

/-- What comes after an order's NEW and its optional modify. -/
theorem within_closing
    {before : List Msg} {cancel : Option Bool} {stale : Bool}
    {mprice : Int64} (first : Within n oid before (cancelMsg n oid 0))
    (late : stale = true →
      modifyMsg n oid mprice 0 ∈ before ∧ cancel.isSome = true)
    (split : cancelPart n oid cancel ++ stalePart n oid mprice stale =
      own ++ m :: own') :
    Within n oid (before ++ own) m := by
  cases cancel with
  | none =>
      cases stale with
      | true => cases (late rfl).2
      | false => cases own <;> cases split
  | some duplicate =>
      cases own with
      | nil =>
          rw [List.append_nil]
          cases split
          exact first
      | cons head own =>
          rw [cancelPart, List.cons_append, List.cons_append,
            List.cons.injEq] at split
          rcases split with ⟨rfl, rest⟩
          exact within_cancelled (fun isStale => (late isStale).1) rest

theorem within_messages
    (life : Lifecycle) (split : life.messages n oid = own ++ m :: own') :
    Within n oid own m := by
  cases life with
  | immediate =>
      cases own with
      | nil =>
          cases split
          exact Within.new true
      | cons head own => cases own <;> cases split
  | resting modify cancel stale late =>
      unfold Lifecycle.messages at split
      cases own with
      | nil =>
          cases split
          exact Within.new false
      | cons head own =>
          rw [List.cons_append, List.cons.injEq, List.append_assoc] at split
          rcases split with ⟨rfl, rest⟩
          cases modify with
          | none =>
              exact within_closing Within.cancel
                (fun isStale => by cases (late isStale).1) rest
          | some repriced =>
              rw [modifyPart, Option.isSome_some, if_pos rfl] at rest
              cases own with
              | nil =>
                  cases rest
                  exact Within.modify _
              | cons head own =>
                  rw [List.cons_append, List.cons_append,
                    List.cons.injEq] at rest
                  rcases rest with ⟨rfl, rest⟩
                  exact within_closing (Within.cancelModified _)
                    (fun isStale =>
                      ⟨List.mem_cons_of_mem _ List.mem_cons_self,
                        (late isStale).2⟩) rest

end Within

/-! ## Between lifecycles -/

/-- The segment an element belongs to, and what surrounds it there. -/
theorem flatMap_split
    {α ι : Type} {segment : ι → List α} {items : List ι}
    {front back : List α} {a : α}
    (split : items.flatMap segment = front ++ a :: back) :
    ∃ done i rest own own',
      items = done ++ i :: rest ∧ front = done.flatMap segment ++ own ∧
        segment i = own ++ a :: own' ∧
        back = own' ++ rest.flatMap segment := by
  induction items generalizing front with
  | nil => cases front <;> cases split
  | cons i later induction =>
      rw [List.flatMap_cons] at split
      have further {inner : List α} (passed : front = segment i ++ inner)
          (inLater : later.flatMap segment = inner ++ a :: back) :
          ∃ done j rest own own',
            i :: later = done ++ j :: rest ∧
              front = done.flatMap segment ++ own ∧
              segment j = own ++ a :: own' ∧
              back = own' ++ rest.flatMap segment := by
        rcases induction inLater with
          ⟨done, j, rest, own, own', items, before, located, after⟩
        refine ⟨i :: done, j, rest, own, own', ?_, ?_, located, after⟩
        · rw [items]
          rfl
        · rw [passed, before, List.flatMap_cons, List.append_assoc]
      rcases List.append_eq_append_iff.mp split with
        ⟨inner, passed, inLater⟩ | ⟨inner, inFirst, rest⟩
      · exact further passed inLater
      · cases inner with
        | nil =>
            rw [List.append_nil] at inFirst
            apply @further []
            · rw [inFirst, List.append_nil]
            · exact rest.symm
        | cons head inner =>
            rw [List.cons_append, List.cons.injEq] at rest
            rcases rest with ⟨rfl, after⟩
            exact ⟨[], i, later, front, inner, rfl, rfl, inFirst, after⟩

/-- The messages of a lifecycle name its order. -/
theorem orderId_messages
    {life : Lifecycle} {n : NewOrder} {oid : UInt64} {m : Msg}
    (member : m ∈ life.messages n oid) : m.orderId = oid := by
  rcases life.messages_eq_cons n oid with ⟨isIoc, later, shape, follow⟩
  rw [shape] at member
  rcases List.mem_cons.mp member with rfl | behind
  · rfl
  · exact (follow m behind).id

theorem orderId_messagesOf
    {news : List NewOrder} {life : Nat → Lifecycle} {order : List Nat}
    {m : Msg} (member : m ∈ messagesOf news life order) :
    ∃ i ∈ order, m.orderId = UInt64.ofNat (i + 1) := by
  rcases List.mem_flatMap.mp member with ⟨i, inside, sent⟩
  exact ⟨i, inside, orderId_messages sent⟩

/-- An order of arrival in which every order has an identifier of its own. -/
structure Numbered (order : List Nat) : Prop where
  once : order.Nodup
  fits : ∀ i ∈ order, i + 1 < 2 ^ 64

theorem Numbered.injective
    {order : List Nat} (numbered : Numbered order) {i j : Nat}
    (inI : i ∈ order) (inJ : j ∈ order)
    (same : UInt64.ofNat (i + 1) = UInt64.ofNat (j + 1)) : i = j := by
  rw [← UInt64.toNat_inj, UInt64.toNat_ofNat_of_lt' (numbered.fits i inI),
    UInt64.toNat_ofNat_of_lt' (numbered.fits j inJ)] at same
  exact Nat.succ_injective same

/-- Orders that arrive at different places have different identifiers. -/
theorem Numbered.apart
    {done rest : List Nat} (numbered : Numbered (done ++ rest)) {i j : Nat}
    (inDone : i ∈ done) (inRest : j ∈ rest) :
    UInt64.ofNat (i + 1) ≠ UInt64.ofNat (j + 1) := by
  intro same
  have equal := numbered.injective (List.mem_append_left rest inDone)
    (List.mem_append_right done inRest) same
  exact List.disjoint_of_nodup_append numbered.once inDone (equal ▸ inRest)

/-! ## Arrivals -/

/-- The side and quantity of a new order that is handed over. -/
structure Proper (o : Api.NewOrder) : Prop where
  sided : o.side = 0 ∨ o.side = 1
  some : 1 ≤ o.quantity.toNat

/-- A modify of an order asks for one lot more than the order did. -/
structure Increases (o : Api.NewOrder) (r : Api.Modify) : Prop where
  id : r.orderId = o.orderId
  side : r.side = o.side
  more : r.newQuantity.toNat = o.quantity.toNat + 1

/-- How a message arrives after those before it. -/
inductive Arrives (front : List Api.Msg) : Api.Msg → Prop where
  | new {o : Api.NewOrder} (proper : Proper o)
      (unseen : ∀ m ∈ front, m.orderId ≠ o.orderId) :
      Arrives front (.newOrder o)
  | modify {before : List Api.Msg} {o : Api.NewOrder} {r : Api.Modify}
      (rests : o.ioc = 0) (increases : Increases o r)
      (last : front = before ++ [.newOrder o]) :
      Arrives front (.modify r)
  | cancel {before : List Api.Msg} {o : Api.NewOrder} {c : Api.Cancel}
      (rests : o.ioc = 0) (own : c.orderId = o.orderId)
      (last : front = before ++ [.newOrder o]) :
      Arrives front (.cancel c)
  | cancelModified {before : List Api.Msg} {o : Api.NewOrder}
      {r : Api.Modify} {c : Api.Cancel}
      (rests : o.ioc = 0) (increases : Increases o r)
      (own : c.orderId = o.orderId)
      (last : front = before ++ [.newOrder o, .modify r]) :
      Arrives front (.cancel c)
  | cancelAgain {first c : Api.Cancel} (member : .cancel first ∈ front)
      (own : c.orderId = first.orderId) :
      Arrives front (.cancel c)
  | modifyAgain {o : Api.NewOrder} {first r : Api.Modify} {c : Api.Cancel}
      (proper : Proper o) (increases : Increases o r)
      (modified : .modify first ∈ front) (own : first.orderId = r.orderId)
      (cancelled : .cancel c ∈ front) (gone : c.orderId = r.orderId) :
      Arrives front (.modify r)

/--
The messages arrive as the lifecycles demand, and an order that another one
follows has sent all its messages.
-/
structure Arranged (tape : List Api.Msg) : Prop where
  arrives : ∀ (front : List Api.Msg) (m : Api.Msg) (back : List Api.Msg),
    tape = front ++ m :: back → Arrives front m
  settled : ∀ (front : List Api.Msg) (m : Api.Msg) (back : List Api.Msg),
    tape = front ++ m :: back → ∀ a ∈ front, a.orderId ≠ m.orderId →
      ∀ b ∈ back, b.orderId ≠ a.orderId

section Arranged

variable {tape front back : List Api.Msg}

/-- A NEW is the first message of its order. -/
theorem Arranged.unseen
    (arranged : Arranged tape) {o : Api.NewOrder}
    (split : tape = front ++ .newOrder o :: back) :
    ∀ m ∈ front, m.orderId ≠ o.orderId := by
  cases arranged.arrives front _ back split with
  | new _ unseen => exact unseen

theorem Arranged.proper
    (arranged : Arranged tape) {o : Api.NewOrder}
    (split : tape = front ++ .newOrder o :: back) : Proper o := by
  cases arranged.arrives front _ back split with
  | new proper _ => exact proper

/-- Every modify asks for one lot more than some order. -/
theorem Arranged.increases
    (arranged : Arranged tape) {r : Api.Modify}
    (split : tape = front ++ .modify r :: back) :
    ∃ o, Proper o ∧ Increases o r := by
  cases arranged.arrives front _ back split with
  | modify _ increases last =>
      subst last
      rw [List.append_assoc] at split
      exact ⟨_, arranged.proper split, increases⟩
  | modifyAgain proper increases _ _ _ _ => exact ⟨_, proper, increases⟩

end Arranged

/-! ## The tape of lifecycles -/

theorem mem_tapeOf
    {msgs : List Msg} {m : Api.Msg} (member : m ∈ tapeOf msgs) :
    ∃ seq, ∃ g ∈ msgs, handed seq g = m := by
  rcases List.mem_mapIdx.mp member with ⟨seq, inside, rfl⟩
  exact ⟨seq, _, List.getElem_mem inside, rfl⟩

theorem handed_mem
    {msgs : List Msg} {g : Msg} (member : g ∈ msgs) :
    ∃ seq, handed seq g ∈ tapeOf msgs := by
  rcases List.getElem_of_mem member with ⟨seq, inside, rfl⟩
  exact ⟨seq, List.mem_mapIdx.mpr ⟨seq, inside, rfl⟩⟩

section Arrival

variable {n : NewOrder} {oid : UInt64}

theorem increases_modifyMsg
    (drawn : Drawn n) (isIoc : Bool) (mprice : Int64) (seq seq' : UInt64) :
    Increases
      { orderId := oid, sequenceNumber := seq, priceTicks := n.priceTicks
        quantity := n.qty, side := n.side, ioc := if isIoc then 1 else 0 }
      { orderId := oid, sequenceNumber := seq', newPriceTicks := mprice
        newQuantity := n.qty + 1, side := n.side } where
  id := rfl
  side := rfl
  more := by
    have most := drawn.most
    show (n.qty + 1).toNat = n.qty.toNat + 1
    rw [UInt32.toNat_add, show (1 : UInt32).toNat = 1 from rfl]
    omega

/-- A message that follows its lifecycle arrives after other lifecycles. -/
theorem arrives_of_within
    {others own : List Msg} {g : Msg} (drawn : Drawn n)
    (apart : ∀ m ∈ others, m.orderId ≠ oid) (seq : Nat)
    (within : Within n oid own g) :
    Arrives (tapeOf (others ++ own)) (handed seq g) := by
  cases within with
  | new isIoc =>
      apply Arrives.new ⟨drawn.sided, drawn.some⟩
      intro m member
      rw [List.append_nil] at member
      rcases mem_tapeOf member with ⟨seq, g, inside, rfl⟩
      rw [orderId_handed]
      exact apart g inside
  | modify mprice =>
      exact Arrives.modify rfl (increases_modifyMsg drawn false mprice _ _)
        List.mapIdx_concat
  | cancel => exact Arrives.cancel rfl rfl List.mapIdx_concat
  | cancelModified mprice =>
      apply Arrives.cancelModified rfl
        (increases_modifyMsg drawn false mprice _ _) rfl
      exact List.mapIdx_append
  | cancelAgain first =>
      rcases handed_mem (List.mem_append_right others first) with
        ⟨seq, member⟩
      exact Arrives.cancelAgain member rfl
  | modifyAgain mprice modified cancelled =>
      rcases handed_mem (List.mem_append_right others modified) with
        ⟨seq, first⟩
      rcases handed_mem (List.mem_append_right others cancelled) with
        ⟨seq', gone⟩
      exact Arrives.modifyAgain ⟨drawn.sided, drawn.some⟩
        (increases_modifyMsg drawn false mprice 0 _) first rfl gone rfl

end Arrival

/-- A place on the tape is a place in the workload. -/
theorem tapeOf_split
    {msgs : List Msg} {front back : List Api.Msg} {m : Api.Msg}
    (split : tapeOf msgs = front ++ m :: back) :
    ∃ before g after, msgs = before ++ g :: after ∧
      front = tapeOf before ∧ m = handed before.length g ∧
      ∀ b ∈ back, ∃ later ∈ after, b.orderId = later.orderId := by
  rcases List.mapIdx_eq_append_iff.mp split with
    ⟨before, rest, rfl, rfl, others⟩
  rcases List.mapIdx_eq_cons_iff.mp others with ⟨g, after, rfl, rfl, rfl⟩
  refine ⟨before, g, after, rfl, rfl, ?_, ?_⟩
  · rw [Nat.zero_add]
  · intro b member
    rcases List.mem_mapIdx.mp member with ⟨k, inside, rfl⟩
    exact ⟨_, List.getElem_mem inside, orderId_handed _ _⟩

/-- The lifecycles arrive one after the other. -/
theorem arranged_messagesOf
    {news : List NewOrder} (life : Nat → Lifecycle) {order : List Nat}
    (numbered : Numbered order)
    (drawn : ∀ i ∈ order, Drawn (news.getD i default)) :
    Arranged (tapeOf (messagesOf news life order)) where
  arrives front m back split := by
    rcases tapeOf_split split with ⟨before, g, after, sent, rfl, rfl, _⟩
    rcases flatMap_split sent with
      ⟨done, i, rest, own, own', rfl, rfl, located, rfl⟩
    refine arrives_of_within
      (drawn i (List.mem_append_right done List.mem_cons_self)) ?_ _
      (within_messages (life i) located)
    intro a inDone
    rcases orderId_messagesOf inDone with ⟨j, member, named⟩
    rw [named]
    exact numbered.apart member List.mem_cons_self
  settled front m back split := by
    rcases tapeOf_split split with ⟨before, g, after, sent, rfl, rfl, later⟩
    rcases flatMap_split sent with
      ⟨done, i, rest, own, own', rfl, rfl, located, rfl⟩
    have owned {x : Msg} (member : x ∈ own ++ g :: own') :
        x.orderId = UInt64.ofNat (i + 1) := by
      rw [← located] at member
      exact orderId_messages member
    have current := owned (List.mem_append_right own List.mem_cons_self)
    rw [orderId_handed, current]
    intro a inFront other b inBack
    rcases mem_tapeOf inFront with ⟨seq, x, sentBefore, rfl⟩
    rcases later b inBack with ⟨y, sentAfter, same⟩
    rw [orderId_handed] at other ⊢
    rw [same]
    have inDone : x ∈ messagesOf news life done := by
      rcases List.mem_append.mp sentBefore with inDone | inOwn
      · exact inDone
      · exact absurd (owned (List.mem_append_left _ inOwn)) other
    rcases List.mem_append.mp sentAfter with inOwn | inRest
    · rw [owned (List.mem_append_right own
        (List.mem_cons_of_mem g inOwn))]
      exact other.symm
    · rcases orderId_messagesOf inDone with ⟨j, memberDone, namedX⟩
      rcases orderId_messagesOf inRest with ⟨k, memberRest, namedY⟩
      rw [namedX, namedY]
      exact (numbered.apart memberDone
        (List.mem_cons_of_mem i memberRest)).symm

/-- The messages of every generated workload arrive in this way. -/
theorem arranged_generate
    (num : Numerics) (request : Request) (stream : Nat → Uniform) :
    Arranged (tapeOf ((generate num request).run stream)) := by
  have structured := (emission_all num request).run stream
  have drawn := (emission_drawn num request).run stream
  rw [generate_run, ← tapeOf_untimed]
  rcases structured.lifecycles with ⟨life, sent⟩
  rw [sent]
  have below (i : Nat)
      (member : i ∈ ((emission num request).run stream).order) :
      i < request.count.toNat :=
    List.mem_range.mp (structured.shuffled.mem_iff.mp member)
  apply arranged_messagesOf
  · constructor
    · exact structured.shuffled.symm.nodup List.nodup_range
    · intro i member
      have fits := request.count.toNat_lt
      have inRange := below i member
      omega
  · intro i member
    apply drawn
    have inNews := below i member
    rw [← structured.placed] at inNews
    rw [List.getD_eq_getElem?_getD, List.getElem?_eq_getElem inNews,
      Option.getD_some]
    exact List.getElem_mem inNews

end MatchingBench.Workload.Arrivals
