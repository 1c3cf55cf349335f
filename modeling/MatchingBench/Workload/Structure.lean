import MatchingBench.Workload.Generator
import Mathlib.Data.Rat.Floor

/-!
# The structure of generated workloads

A workload is one contiguous lifecycle per order, in the order of the shuffled
permutation: the running clock never goes back, so the final sort finds the
messages sorted.  What the draws of lifetimes and gaps yield changes timestamps
only.
-/

set_option autoImplicit false

namespace MatchingBench.Workload.Structure

open MatchingBench.Lib.Draws
open MatchingBench.Lib.KeyedSort
open MatchingBench.Workload.Generator

/-! ## Lifecycles -/

/-- A message without its timestamp. -/
def untimed (m : Msg) : Msg :=
  { m with ts := 0 }

/--
What is sent for an order.  One that is not immediate-or-cancel may be modified
(and repriced), may be cancelled (and once more), and a stale modify comes only
after both.
-/
inductive Lifecycle where
  | immediate
  | resting (modify : Option Bool) (cancel : Option Bool) (stale : Bool)
      (late : stale = true → modify.isSome ∧ cancel.isSome)

/-- `mprice` after an optional modify. -/
def lastPrice (n : NewOrder) : Option Bool → Int64
  | some repriced => modifiedPrice n repriced
  | none => n.priceTicks

/-- The messages of an optional modify. -/
def modifyPart (n : NewOrder) (oid : UInt64) (modify : Option Bool) :
    List Msg :=
  if modify.isSome then [modifyMsg n oid (lastPrice n modify) 0] else []

/-- The messages of an optional cancel. -/
def cancelPart (n : NewOrder) (oid : UInt64) : Option Bool → List Msg
  | some duplicate =>
      cancelMsg n oid 0 :: if duplicate then [cancelMsg n oid 0] else []
  | none => []

/-- The messages of a stale modify. -/
def stalePart (n : NewOrder) (oid : UInt64) (mprice : Int64) (stale : Bool) :
    List Msg :=
  if stale then [modifyMsg n oid mprice 0] else []

/-- The messages of a lifecycle. -/
def Lifecycle.messages (n : NewOrder) (oid : UInt64) : Lifecycle → List Msg
  | immediate => [newMsg n oid true 0]
  | resting modify cancel stale _ =>
      newMsg n oid false 0 :: (modifyPart n oid modify ++
        cancelPart n oid cancel ++
        stalePart n oid (lastPrice n modify) stale)

/-! ## The timeline -/

/-- The messages are in order of time, and the clock is not behind them. -/
def Running (t : Timeline) : Prop :=
  (t.tl.Pairwise fun a b => a.ts ≤ b.ts) ∧ ∀ m ∈ t.tl, m.ts ≤ t.now

/-- A timeline goes on with these messages. -/
structure Extends (t : Timeline) (added : List Msg) (t' : Timeline) :
    Prop where
  sent : t'.tl.map untimed = t.tl.map untimed ++ added
  running : Running t → Running t'

theorem Extends.refl (t : Timeline) : Extends t [] t where
  sent := (List.append_nil _).symm
  running := id

theorem Extends.trans
    {t t' t'' : Timeline} {first second : List Msg}
    (before : Extends t first t') (after : Extends t' second t'') :
    Extends t (first ++ second) t'' where
  sent := by rw [after.sent, before.sent, List.append_assoc]
  running := after.running ∘ before.running

theorem Extends.push
    {t : Timeline} {m : Msg} (later : t.now ≤ m.ts) :
    Extends t [untimed m] (t.push m) where
  sent := by rw [Timeline.push, List.map_append, List.map_singleton]
  running := by
    rintro ⟨sorted, behind⟩
    constructor
    · refine List.pairwise_append.mpr
        ⟨sorted, List.pairwise_singleton _ _, fun a member b last => ?_⟩
      rw [List.mem_singleton.mp last]
      exact Int.le_trans (behind a member) later
    · intro a member
      rcases List.mem_append.mp member with old | new
      · exact Int.le_trans (behind a old) later
      · rw [List.mem_singleton.mp new]
        exact Int.le_refl _

theorem Extends.tick (t : Timeline) : Extends t [] t.tick where
  sent := (List.append_nil _).symm
  running := by
    rintro ⟨sorted, behind⟩
    refine ⟨sorted, fun m member => ?_⟩
    have before := behind m member
    show m.ts ≤ t.now + 1
    omega

/-! ## One lifecycle -/

section Lifecycle

variable (num : Numerics) (n : NewOrder) (oid : UInt64)

theorem Extends.modify
    {t : Timeline} {ts : Int} (mprice : Int64) (later : t.now ≤ ts) :
    Extends t [modifyMsg n oid mprice 0]
      (t.push (modifyMsg n oid mprice ts)) :=
  @Extends.push t (modifyMsg n oid mprice ts) later

theorem Extends.cancel
    {t : Timeline} {ts : Int} (later : t.now ≤ ts) :
    Extends t [cancelMsg n oid 0] (t.push (cancelMsg n oid ts)) :=
  @Extends.push t (cancelMsg n oid ts) later

theorem maybeModify_all (t : Timeline) :
    (maybeModify num n oid t).All fun result =>
      ∃ modify, Extends t (modifyPart n oid modify) result.1 ∧
        result.2 = (modify.isSome, lastPrice n modify) := by
  refine Sampler.All.ask fun u => ?_
  split
  · refine Sampler.All.ask fun gap => Sampler.All.ask fun r => ?_
    exact Sampler.All.done
      ⟨some (r.val < repricePct),
        Extends.modify n oid _ (by omega), rfl⟩
  · exact Sampler.All.done ⟨none, Extends.refl t, rfl⟩

theorem maybeDuplicate_all (t : Timeline) :
    (maybeDuplicate num n oid t).All fun t' =>
      ∃ duplicate : Bool,
        Extends t (if duplicate then [cancelMsg n oid 0] else []) t' := by
  refine Sampler.All.ask fun u => ?_
  split
  · refine Sampler.All.ask fun g => ?_
    exact Sampler.All.done
      ⟨true, Extends.cancel n oid (by omega)⟩
  · exact Sampler.All.done ⟨false, Extends.refl t⟩

theorem maybeCancel_all (t : Timeline) :
    (maybeCancel num n oid t).All fun result =>
      ∃ cancel, Extends t (cancelPart n oid cancel) result.1 ∧
        result.2 = cancel.isSome := by
  refine Sampler.All.ask fun u => ?_
  split
  · refine Sampler.All.ask fun e => ?_
    have waits := num.lifetime_nonneg n.lvl e
    have sent : Extends t [cancelMsg n oid 0]
        (t.push (cancelMsg n oid (t.now + num.lifetime n.lvl e))) :=
      Extends.cancel n oid (by omega)
    refine (maybeDuplicate_all num n oid _).bind fun t' repeated => ?_
    rcases repeated with ⟨duplicate, again⟩
    exact Sampler.All.done ⟨some duplicate, sent.trans again, rfl⟩
  · exact Sampler.All.done ⟨none, Extends.refl t, rfl⟩

theorem maybeStale_all
    (modified cancelled : Bool) (mprice : Int64) (t : Timeline) :
    (maybeStale num n oid modified cancelled mprice t).All fun t' =>
      ∃ stale, (stale = true → modified = true ∧ cancelled = true) ∧
        Extends t (stalePart n oid mprice stale) t' := by
  unfold maybeStale
  split
  · rename_i both
    refine Sampler.All.ask fun u => ?_
    split
    · refine Sampler.All.ask fun g => ?_
      exact Sampler.All.done
        ⟨true, fun _ => Bool.and_eq_true_iff.mp both,
          Extends.modify n oid mprice (by omega)⟩
    · exact Sampler.All.done ⟨false, nofun, Extends.refl t⟩
  · exact Sampler.All.done ⟨false, nofun, Extends.refl t⟩

/-- Every lifecycle has one of the shapes. -/
theorem lifecycle_all (t : Timeline) :
    (lifecycle num n oid t).All fun t' =>
      ∃ life : Lifecycle, Extends t (life.messages n oid) t' := by
  refine Sampler.All.ask fun u => ?_
  dsimp only
  generalize decide (u.val < iocPct) = isIoc
  have sent : Extends t [newMsg n oid isIoc 0]
      (t.push (newMsg n oid isIoc t.now)) :=
    @Extends.push t (newMsg n oid isIoc t.now) (Int.le_refl _)
  split
  · rename_i immediate
    subst immediate
    exact Sampler.All.done ⟨.immediate, sent.trans (Extends.tick _)⟩
  · rename_i stays
    cases eq_false_of_ne_true stays
    refine (maybeModify_all num n oid _).bind fun first modified => ?_
    rcases first with ⟨t1, _, _⟩
    rcases modified with ⟨modify, afterModify, equal⟩
    cases equal
    refine (maybeCancel_all num n oid _).bind fun second cancelled => ?_
    rcases second with ⟨t2, _⟩
    rcases cancelled with ⟨cancel, afterCancel, equal⟩
    cases equal
    refine (maybeStale_all num n oid _ _ _ _).bind fun t3 repeated => ?_
    rcases repeated with ⟨stale, late, afterStale⟩
    refine Sampler.All.done ⟨.resting modify cancel stale late, ?_⟩
    have whole := sent.trans
      (((afterModify.trans afterCancel).trans afterStale).trans
        (Extends.tick t3))
    rw [List.append_nil] at whole
    exact whole

end Lifecycle

/-! ## The loops -/

theorem placeAll_all
    (num : Numerics) (scenario : Scenario) (count : UInt64)
    (indices : List Nat) (mid : num.Mid) :
    (placeAll num scenario count indices mid).All fun news =>
      news.length = indices.length := by
  induction indices generalizing mid with
  | nil => exact Sampler.All.done rfl
  | cons i later induction =>
      have placed : (place num scenario count i mid).All fun _ => True := by
        refine Sampler.All.ask fun u1 => Sampler.All.ask fun u2 => ?_
        refine Sampler.All.ask fun lvl => Sampler.All.ask fun qty => ?_
        exact Sampler.All.done trivial
      refine placed.bind fun result _ => ?_
      refine (induction result.1).bind fun news size => ?_
      exact Sampler.All.done (congrArg (· + 1) size)

theorem swapIfInBounds_perm (order : Array Nat) (i j : Nat) :
    (order.swapIfInBounds i j).toList.Perm order.toList := by
  rw [Array.swapIfInBounds_def]
  split
  · split
    · exact (Array.swap_perm _ _).toList
    · exact List.Perm.refl _
  · exact List.Perm.refl _

/-- The shuffle permutes. -/
theorem shuffle_all (num : Numerics) (i : Nat) (order : Array Nat) :
    (shuffle num i order).All fun shuffled =>
      shuffled.toList.Perm order.toList := by
  induction i generalizing order with
  | zero => exact Sampler.All.done (List.Perm.refl _)
  | succ i induction =>
      refine Sampler.All.ask fun u => ?_
      refine (induction _).mono fun shuffled perm => ?_
      exact perm.trans (swapIfInBounds_perm order _ _)

/-- The messages of lifecycles in an order of arrival. -/
def messagesOf
    (news : List NewOrder) (life : Nat → Lifecycle) (order : List Nat) :
    List Msg :=
  order.flatMap fun i =>
    (life i).messages (news.getD i default) (UInt64.ofNat (i + 1))

theorem expand_all
    (num : Numerics) (news : List NewOrder) {order : List Nat}
    (once : order.Nodup) (t : Timeline) :
    (expand num news order t).All fun t' =>
      ∃ life, Extends t (messagesOf news life order) t' := by
  induction order generalizing t with
  | nil =>
      exact Sampler.All.done ⟨fun _ => .immediate, Extends.refl t⟩
  | cons i later induction =>
      have ⟨apart, onceLater⟩ := List.nodup_cons.mp once
      refine (lifecycle_all num _ _ t).bind fun t1 first => ?_
      rcases first with ⟨own, sent⟩
      refine (induction onceLater t1).mono fun t2 rest => ?_
      rcases rest with ⟨life, others⟩
      refine ⟨Function.update life i own, ?_⟩
      have same :
          messagesOf news (Function.update life i own) later =
            messagesOf news life later := by
        refine List.flatMap_congr fun j member => ?_
        have other : j ≠ i := by
          rintro rfl
          exact apart member
        rw [Function.update_of_ne other]
      unfold messagesOf at same others ⊢
      rw [List.flatMap_cons, same, Function.update_self]
      exact sent.trans others

/-- The generator's messages are lifecycles in the order of the permutation. -/
structure Structured (request : Request) (e : Emission) : Prop where
  placed : e.news.length = request.count.toNat
  shuffled : e.order.Perm (List.range request.count.toNat)
  lifecycles : ∃ life, e.tl.map untimed = messagesOf e.news life e.order
  sorted : e.tl.Pairwise fun a b => a.ts ≤ b.ts

theorem emission_all (num : Numerics) (request : Request) :
    (emission num request).All (Structured request) := by
  refine (placeAll_all num _ _ _ _).bind fun news placed => ?_
  rw [List.length_range] at placed
  refine (shuffle_all num _ _).bind fun order shuffled => ?_
  rw [Array.toList_range] at shuffled
  refine (expand_all num news (shuffled.symm.nodup List.nodup_range) _).bind
    fun t expanded => ?_
  rcases expanded with ⟨life, sent⟩
  have nothing : Running { tl := [], now := 0 } :=
    ⟨List.Pairwise.nil, fun _ member => by cases member⟩
  exact Sampler.All.done ⟨placed, shuffled, ⟨life, sent.sent⟩,
    (sent.running nothing).1⟩

/-- The sort finds the messages in order. -/
theorem Structured.sort
    {request : Request} {e : Emission} (structured : Structured request e) :
    stableSort earlier e.tl = e.tl :=
  stableSort_of_sorted (fun _ _ => rfl) structured.sorted

theorem generate_run
    (num : Numerics) (request : Request) (stream : Nat → Uniform) :
    (generate num request).run stream =
      ((emission num request).run stream).tl := by
  have ran := Sampler.run_bind_pure (emission num request)
    (fun e => stableSort earlier e.tl) stream
  exact ran.trans ((emission_all num request).run stream).sort

/-! ## What the structure implies -/

/-- A message of an order's lifecycle after its NEW. -/
structure Follows (n : NewOrder) (oid : UInt64) (m : Msg) : Prop where
  type : m.type ≠ msgNew
  id : m.orderId = oid
  side : m.side = n.side

theorem follows_modify (n : NewOrder) (oid : UInt64) (mprice : Int64) :
    Follows n oid (modifyMsg n oid mprice 0) :=
  ⟨(by decide : msgModify ≠ msgNew), rfl, rfl⟩

theorem follows_cancel (n : NewOrder) (oid : UInt64) :
    Follows n oid (cancelMsg n oid 0) :=
  ⟨(by decide : msgCancel ≠ msgNew), rfl, rfl⟩

/-- A lifecycle starts with its only NEW. -/
theorem Lifecycle.messages_eq_cons
    (life : Lifecycle) (n : NewOrder) (oid : UInt64) :
    ∃ isIoc later, life.messages n oid = newMsg n oid isIoc 0 :: later ∧
      ∀ m ∈ later, Follows n oid m := by
  cases life with
  | immediate => exact ⟨true, [], rfl, fun _ member => by cases member⟩
  | resting modify cancel stale late =>
      refine ⟨false, _, rfl, fun m member => ?_⟩
      rcases List.mem_append.mp member with before | inStale
      · rcases List.mem_append.mp before with inModify | inCancel
        · unfold modifyPart at inModify
          split at inModify
          · rw [List.mem_singleton.mp inModify]
            exact follows_modify n oid _
          · cases inModify
        · cases cancel with
          | none => cases inCancel
          | some duplicate =>
              rcases List.mem_cons.mp inCancel with rfl | again
              · exact follows_cancel n oid
              · split at again
                · rw [List.mem_singleton.mp again]
                  exact follows_cancel n oid
                · cases again
      · unfold stalePart at inStale
        split at inStale
        · rw [List.mem_singleton.mp inStale]
          exact follows_modify n oid _
        · cases inStale

theorem length_messagesOf_ge
    (news : List NewOrder) (life : Nat → Lifecycle) (order : List Nat) :
    order.length ≤ (messagesOf news life order).length := by
  induction order with
  | nil => exact Nat.le_refl 0
  | cons i later induction =>
      obtain ⟨isIoc, rest, shape, -⟩ := (life i).messages_eq_cons
        (news.getD i default) (UInt64.ofNat (i + 1))
      have split : messagesOf news life (i :: later) =
          newMsg (news.getD i default) (UInt64.ofNat (i + 1)) isIoc 0 ::
            rest ++ messagesOf news life later := by
        rw [← shape]
        rfl
      rw [split, List.length_append, List.length_cons, List.length_cons]
      omega

/-- Every order has a message. -/
theorem count_le_length
    (num : Numerics) (request : Request) (stream : Nat → Uniform) :
    request.count.toNat ≤ ((generate num request).run stream).length := by
  have structured := (emission_all num request).run stream
  obtain ⟨life, sent⟩ := structured.lifecycles
  have orders := structured.shuffled.length_eq
  rw [List.length_range] at orders
  rw [generate_run, ← List.length_map untimed, sent, ← orders]
  exact length_messagesOf_ge _ life _

/-- A NEW of an identifier. -/
def isNewOf (id : UInt64) (m : Msg) : Bool :=
  m.type == msgNew && m.orderId == id

theorem countP_messages
    (life : Lifecycle) (n : NewOrder) (oid id : UInt64) :
    (life.messages n oid).countP (isNewOf id) =
      if oid = id then 1 else 0 := by
  rcases life.messages_eq_cons n oid with ⟨isIoc, later, shape, follow⟩
  have others : later.countP (isNewOf id) = 0 := by
    refine List.countP_eq_zero.mpr fun m member new => ?_
    rw [isNewOf, Bool.and_eq_true, beq_iff_eq] at new
    exact (follow m member).type new.1
  rw [shape, List.countP_cons, others, Nat.zero_add]
  simp [isNewOf, newMsg]

theorem sum_range_ids
    (id : UInt64) {count : Nat} (fits : count < 2 ^ 64) :
    ((List.range count).map fun i =>
        if UInt64.ofNat (i + 1) = id then 1 else 0).sum =
      if 1 ≤ id.toNat ∧ id.toNat ≤ count then 1 else 0 := by
  induction count with
  | zero =>
      rw [if_neg (by omega)]
      rfl
  | succ count induction =>
      have last : UInt64.ofNat (count + 1) = id ↔ id.toNat = count + 1 := by
        rw [← UInt64.toNat_inj, UInt64.toNat_ofNat_of_lt' fits]
        exact eq_comm
      rw [List.range_succ, List.map_append, List.sum_append,
        induction (by omega)]
      simp only [List.map_singleton, List.sum_singleton, last]
      split <;> split <;> split <;> omega

/-- A NEW with the same identifier and side precedes every other message. -/
def Introduced (msgs : List Msg) : Prop :=
  ∀ front m back, msgs = front ++ m :: back → m.type ≠ msgNew →
    ∃ first ∈ front, first.type = msgNew ∧ first.orderId = m.orderId ∧
      first.side = m.side

theorem introduced_messages
    (life : Lifecycle) (n : NewOrder) (oid : UInt64) :
    Introduced (life.messages n oid) := by
  rcases life.messages_eq_cons n oid with ⟨isIoc, later, shape, follow⟩
  intro front m back split other
  rw [shape] at split
  cases front with
  | nil =>
      cases split
      exact absurd rfl other
  | cons first front =>
      rw [List.cons_append, List.cons.injEq] at split
      rcases split with ⟨rfl, rest⟩
      have follows := follow m
        (rest ▸ List.mem_append_right front List.mem_cons_self)
      exact ⟨_, List.mem_cons_self, rfl, follows.id.symm, follows.side.symm⟩

theorem Introduced.append
    {a b : List Msg} (first : Introduced a) (second : Introduced b) :
    Introduced (a ++ b) := by
  intro front m back split other
  rcases List.append_eq_append_iff.mp split with
    ⟨inner, rfl, inB⟩ | ⟨inner, inA, rest⟩
  · rcases second inner m back inB other with ⟨found, member, new⟩
    exact ⟨found, List.mem_append_right a member, new⟩
  · cases inner with
    | nil =>
        rcases second [] m back rest.symm other with ⟨_, member, _⟩
        cases member
    | cons head inner =>
        rw [List.cons_append, List.cons.injEq] at rest
        rcases rest with ⟨rfl, _⟩
        exact first front m inner inA other

theorem introduced_messagesOf
    (news : List NewOrder) (life : Nat → Lifecycle) (order : List Nat) :
    Introduced (messagesOf news life order) := by
  induction order with
  | nil =>
      intro front m back split
      simp [messagesOf] at split
  | cons i later induction =>
      exact (introduced_messages (life i) _ _).append induction

/-- Timestamps play no part. -/
theorem Introduced.of_untimed
    {msgs : List Msg} (introduced : Introduced (msgs.map untimed)) :
    Introduced msgs := by
  rintro front m back rfl other
  rw [List.map_append, List.map_cons] at introduced
  rcases introduced _ _ _ rfl other with ⟨first, member, new⟩
  rcases List.mem_map.mp member with ⟨found, inside, rfl⟩
  exact ⟨found, inside, new⟩

/-- Messages of one identifier have one side. -/
def OneSided (msgs : List Msg) : Prop :=
  ∀ a ∈ msgs, ∀ b ∈ msgs, a.orderId = b.orderId → a.side = b.side

theorem oneSided_messagesOf
    (news : List NewOrder) (life : Nat → Lifecycle) {order : List Nat}
    (fits : ∀ i ∈ order, i + 1 < 2 ^ 64) :
    OneSided (messagesOf news life order) := by
  have owner (m : Msg) (member : m ∈ messagesOf news life order) :
      ∃ i ∈ order, m.orderId = UInt64.ofNat (i + 1) ∧
        m.side = (news.getD i default).side := by
    rcases List.mem_flatMap.mp member with ⟨i, inside, sent⟩
    rcases (life i).messages_eq_cons (news.getD i default)
      (UInt64.ofNat (i + 1)) with ⟨isIoc, later, shape, follow⟩
    rw [shape] at sent
    refine ⟨i, inside, ?_⟩
    rcases List.mem_cons.mp sent with rfl | behind
    · exact ⟨rfl, rfl⟩
    · exact ⟨(follow m behind).id, (follow m behind).side⟩
  intro a memberA b memberB same
  rcases owner a memberA with ⟨i, inI, idA, sideA⟩
  rcases owner b memberB with ⟨j, inJ, idB, sideB⟩
  rw [idA, idB, ← UInt64.toNat_inj, UInt64.toNat_ofNat_of_lt' (fits i inI),
    UInt64.toNat_ofNat_of_lt' (fits j inJ)] at same
  rw [sideA, sideB, Nat.succ_injective same]

theorem OneSided.of_untimed
    {msgs : List Msg} (oneSided : OneSided (msgs.map untimed)) :
    OneSided msgs :=
  fun a memberA b memberB same =>
    oneSided (untimed a) (List.mem_map_of_mem memberA) (untimed b)
      (List.mem_map_of_mem memberB) same

/-! ## Lifetimes and gaps -/

/-- The draws of lifetimes and gaps. -/
def Timing (purpose : Purpose) : Prop :=
  purpose = .timing

theorem content_not_timing : ¬Timing .content :=
  nofun

/-- Two timelines with the same messages, sent at any times. -/
def SameSent (t t' : Timeline) : Prop :=
  t.tl.map untimed = t'.tl.map untimed

theorem SameSent.push
    {t t' : Timeline} (same : SameSent t t') {m m' : Msg}
    (alike : untimed m = untimed m') : SameSent (t.push m) (t'.push m') := by
  rw [SameSent, Timeline.push, Timeline.push, List.map_append,
    List.map_append, same, List.map_singleton, List.map_singleton, alike]

section Related

variable {num : Numerics} {n : NewOrder} {oid : UInt64} {t t' : Timeline}

theorem maybeModify_related (same : SameSent t t') :
    Sampler.Related Timing
      (fun result result' =>
        SameSent result.1 result'.1 ∧ result.2 = result'.2)
      (maybeModify num n oid t) (maybeModify num n oid t') := by
  refine Sampler.Related.ask content_not_timing fun u => ?_
  by_cases modifies : u.val < modifyPct
  · rw [if_pos modifies, if_pos modifies]
    refine Sampler.Related.ask_any fun gap gap' => ?_
    refine Sampler.Related.ask content_not_timing fun r => ?_
    exact Sampler.Related.done ⟨same.push rfl, rfl⟩
  · rw [if_neg modifies, if_neg modifies]
    exact Sampler.Related.done ⟨same, rfl⟩

theorem maybeDuplicate_related (same : SameSent t t') :
    Sampler.Related Timing SameSent (maybeDuplicate num n oid t)
      (maybeDuplicate num n oid t') := by
  refine Sampler.Related.ask content_not_timing fun u => ?_
  by_cases repeats : u.val < dupCancelPct
  · rw [if_pos repeats, if_pos repeats]
    refine Sampler.Related.ask_any fun g g' => ?_
    exact Sampler.Related.done (same.push rfl)
  · rw [if_neg repeats, if_neg repeats]
    exact Sampler.Related.done same

theorem maybeCancel_related (same : SameSent t t') :
    Sampler.Related Timing
      (fun result result' =>
        SameSent result.1 result'.1 ∧ result.2 = result'.2)
      (maybeCancel num n oid t) (maybeCancel num n oid t') := by
  refine Sampler.Related.ask content_not_timing fun u => ?_
  by_cases cancels : u.val < cancelPct
  · rw [if_pos cancels, if_pos cancels]
    refine Sampler.Related.ask_any fun e e' => ?_
    have sent : SameSent
        (t.push (cancelMsg n oid (t.now + num.lifetime n.lvl e)))
        (t'.push (cancelMsg n oid (t'.now + num.lifetime n.lvl e'))) :=
      same.push rfl
    refine (maybeDuplicate_related sent).bind fun _ _ kept => ?_
    exact Sampler.Related.done ⟨kept, rfl⟩
  · rw [if_neg cancels, if_neg cancels]
    exact Sampler.Related.done ⟨same, rfl⟩

theorem maybeStale_related
    (modified cancelled : Bool) (mprice : Int64) (same : SameSent t t') :
    Sampler.Related Timing SameSent
      (maybeStale num n oid modified cancelled mprice t)
      (maybeStale num n oid modified cancelled mprice t') := by
  unfold maybeStale
  by_cases both : (modified && cancelled) = true
  · rw [if_pos both, if_pos both]
    refine Sampler.Related.ask content_not_timing fun u => ?_
    by_cases repeats : u.val < dupModifyPct
    · rw [if_pos repeats, if_pos repeats]
      refine Sampler.Related.ask_any fun g g' => ?_
      exact Sampler.Related.done (same.push rfl)
    · rw [if_neg repeats, if_neg repeats]
      exact Sampler.Related.done same
  · rw [if_neg both, if_neg both]
    exact Sampler.Related.done same

theorem lifecycle_related (same : SameSent t t') :
    Sampler.Related Timing SameSent (lifecycle num n oid t)
      (lifecycle num n oid t') := by
  refine Sampler.Related.ask content_not_timing fun u => ?_
  dsimp only
  generalize decide (u.val < iocPct) = isIoc
  cases isIoc with
  | true => exact Sampler.Related.done (same.push rfl)
  | false =>
      rw [if_neg Bool.false_ne_true, if_neg Bool.false_ne_true]
      have sent : SameSent (t.push (newMsg n oid false t.now))
          (t'.push (newMsg n oid false t'.now)) :=
        same.push rfl
      refine (maybeModify_related sent).bind fun first first' => ?_
      rcases first with ⟨t1, modified, mprice⟩
      rcases first' with ⟨t1', modified', mprice'⟩
      rintro ⟨kept, equal⟩
      cases equal
      refine (maybeCancel_related kept).bind fun second second' => ?_
      rcases second with ⟨t2, cancelled⟩
      rcases second' with ⟨t2', cancelled'⟩
      rintro ⟨kept, equal⟩
      cases equal
      refine (maybeStale_related modified cancelled mprice kept).bind
        fun _ _ kept => ?_
      exact Sampler.Related.done kept

theorem expand_related
    (news : List NewOrder) (order : List Nat) (same : SameSent t t') :
    Sampler.Related Timing SameSent (expand num news order t)
      (expand num news order t') := by
  induction order generalizing t t' with
  | nil => exact Sampler.Related.done same
  | cons i later induction =>
      exact (lifecycle_related same).bind fun _ _ kept => induction kept

theorem placeAll_related
    (scenario : Scenario) (count : UInt64) (indices : List Nat)
    (mid : num.Mid) :
    Sampler.Related Timing Eq (placeAll num scenario count indices mid)
      (placeAll num scenario count indices mid) := by
  induction indices generalizing mid with
  | nil => exact Sampler.Related.done rfl
  | cons i later induction =>
      have placed : Sampler.Related Timing Eq
          (place num scenario count i mid) (place num scenario count i mid) :=
        Sampler.Related.ask content_not_timing fun _ =>
          Sampler.Related.ask content_not_timing fun _ =>
            Sampler.Related.ask content_not_timing fun _ =>
              Sampler.Related.ask content_not_timing fun _ =>
                Sampler.Related.done rfl
      refine placed.bind fun first first' equal => ?_
      cases equal
      refine (induction first.1).bind fun news news' equal => ?_
      cases equal
      exact Sampler.Related.done rfl

theorem shuffle_related (i : Nat) (order : Array Nat) :
    Sampler.Related Timing Eq (shuffle num i order) (shuffle num i order) := by
  induction i generalizing order with
  | zero => exact Sampler.Related.done rfl
  | succ i induction =>
      exact Sampler.Related.ask content_not_timing fun _ => induction _

/-- Lifetimes and gaps change timestamps only. -/
theorem emission_related (num : Numerics) (request : Request) :
    Sampler.Related Timing
      (fun e e' => e.tl.map untimed = e'.tl.map untimed)
      (emission num request) (emission num request) := by
  refine (placeAll_related _ _ _ _).bind fun news news' equal => ?_
  cases equal
  refine (shuffle_related _ _).bind fun order order' equal => ?_
  cases equal
  refine (expand_related news order.toList rfl).bind fun _ _ kept => ?_
  exact Sampler.Related.done kept

/-- The sort does not bring the timestamps into the order. -/
theorem generate_related (num : Numerics) (request : Request) :
    Sampler.Related Timing
      (fun msgs msgs' => msgs.map untimed = msgs'.map untimed)
      (generate num request) (generate num request) := by
  have structured := emission_all num request
  refine ((emission_related num request).and_all structured structured).bind
    fun e e' => ?_
  rintro ⟨same, sorts, sorts'⟩
  refine Sampler.Related.done ?_
  rw [sorts.sort, sorts'.sort]
  exact same

end Related

/-! ## The structure of a workload -/

/--
The structure of every generated workload.  The final sort leaves the emitted
messages in their order, which is one contiguous lifecycle per order in the
order of the shuffled permutation; every identifier from 1 to the count has
exactly one NEW, which precedes the order's other messages and has their side;
and streams that differ only in lifetimes and gaps give the same messages in
the same order.
-/
theorem generated_structure
    (num : Numerics) (request : Request) (stream : Nat → Uniform) :
    let count := request.count.toNat
    let e := (emission num request).run stream
    let msgs := (generate num request).run stream
    msgs = e.tl ∧
      (e.news.length = count ∧ e.order.Perm (List.range count) ∧
        ∃ life, msgs.map untimed = messagesOf e.news life e.order) ∧
      (∀ id : UInt64,
        msgs.countP (isNewOf id) =
          if 1 ≤ id.toNat ∧ id.toNat ≤ count then 1 else 0) ∧
      Introduced msgs ∧ OneSided msgs ∧
      ∀ other : Nat → Uniform,
        (∀ n, ¬(generate num request).ReadsMarked Timing stream n →
          stream n = other n) →
        ((generate num request).run other).map untimed =
          msgs.map untimed := by
  have structured := (emission_all num request).run stream
  have same := generate_run num request stream
  obtain ⟨placed, shuffled, ⟨life, sent⟩, _⟩ := structured
  have inRange (i : Nat)
      (member : i ∈ ((emission num request).run stream).order) :
      i + 1 < 2 ^ 64 := by
    have below := List.mem_range.mp (shuffled.mem_iff.mp member)
    have fits := request.count.toNat_lt
    omega
  dsimp only
  rw [same]
  refine ⟨rfl, ⟨placed, shuffled, life, sent⟩, fun id => ?_, ?_, ?_,
    fun other agree => ?_⟩
  · have counted :
        (((emission num request).run stream).tl.map untimed).countP
            (isNewOf id) =
          ((emission num request).run stream).tl.countP (isNewOf id) :=
      List.countP_map
    rw [← counted, sent, messagesOf, List.countP_flatMap,
      ← sum_range_ids id request.count.toNat_lt]
    simp only [Function.comp_def, countP_messages]
    exact (shuffled.map _).sum_nat
  · exact Introduced.of_untimed (sent ▸ introduced_messagesOf _ life _)
  · exact OneSided.of_untimed (sent ▸ oneSided_messagesOf _ life inRange)
  · rw [← same]
    exact ((generate_related num request).run agree).symm

/-- A mid price that stays at its start, and exact products. -/
def steady : Numerics where
  Mid := Unit
  startMid := ()
  step _ _ _ _ _ := ()
  midTicks _ := 33504
  lowerBound u := ⌊u.val * 800⌋.toNat
  scaled u n := UInt32.ofNat ⌊u.val * n.toNat⌋.toNat
  scaled_lt u n positive := by
    have some_ : 0 < n.toNat := UInt32.lt_iff_toNat_lt.mp positive
    have below : ⌊u.val * n.toNat⌋ < n.toNat := by
      rw [Int.floor_lt]
      have size : (0 : ℚ) < n.toNat := Nat.cast_pos.mpr some_
      calc
        u.val * n.toNat < 1 * n.toNat :=
          mul_lt_mul_of_pos_right u.property.2 size
        _ = (n.toNat : ℤ) := by rw [one_mul, Int.cast_natCast]
    have small : ⌊u.val * n.toNat⌋.toNat < n.toNat := by omega
    rw [UInt32.lt_iff_toNat_lt,
      UInt32.toNat_ofNat_of_lt' (Nat.lt_trans small n.toNat_lt)]
    exact small
  lifetime _ u := ⌊u.val * 600⌋
  lifetime_nonneg _ u :=
    Int.floor_nonneg.mpr (mul_nonneg u.property.1 (by decide))

/-- The draw 0. -/
def least : Uniform :=
  ⟨0, le_refl _, by norm_num⟩

/-- The draw 1/2. -/
def half : Uniform :=
  ⟨1 / 2, by norm_num, by norm_num⟩

/-- Every draw is the same. -/
def halves (_ : Nat) : Uniform :=
  half

/-- Three orders in the static scenario. -/
def threeOrders : Request where
  scenario := .static
  count := 3
  enough := by decide

/-- A buy and a sell in the static scenario. -/
def twoSides : Request where
  scenario := .static
  count := 2
  enough := by decide

/--
Both orders are placed next to the mid price and repriced to it, where they
trade; the sell, which came second, is cancelled afterwards.
-/
def meeting (k : Nat) : Uniform :=
  if k = 2 ∨ k = 6 ∨ k = 10 ∨ k = 15 then least
  else if k = 13 then ⟨99 / 100, by norm_num, by norm_num⟩
  else half

theorem generated_structure_steady :
    ((generate steady threeOrders).run halves).countP (isNewOf 3) = 1 :=
  (generated_structure steady threeOrders halves).2.2.1 3

end MatchingBench.Workload.Structure
