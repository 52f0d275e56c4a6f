/-
# What following the cpus keeps

Buffers are drained and cpus are followed while a recording goes on. Most of
it leaves alone how records are decoded; what does not is handing a record on
and announcing the ids of a cpu that has come. So a property that these two
keep is kept by all of it (`Recording.Followed`), also where it fails half way.

Key definitions: `ringRecords`, `SelectionSet.learnIds`, `Recording.announce`,
`SelectionSet.gone`, `SelectionSet.come`, `Recording.turn`, `Recording.Followed`.
Key theorems: `Recording.keeps_drainCpu`, `Recording.keeps_announce`,
`Recording.leaves_drainCpu`, `Recording.keeps_followCpus`,
`Recording.Followed.keeps_followCpus`.
-/
import Profiler.Proofs.Recording.Views

namespace Profiler

/-- The records in the data of a buffer. -/
def ringRecords (data : Bytes) : UpTo RawRecord :=
  cutRecords (fun h position => .ringRecord h.type.toNat h.size.toNat position) 0 data

/-- Ids go into the table, each with the place of its attr. -/
def SelectionSet.learnIds (s : SelectionSet) (ids : List (UInt64 × UInt64)) : SelectionSet :=
  { s with attrOfId := ids.foldl (fun m e => m.insert e.2 e.1.toNat) s.attrOfId }

open Effect (Keeps Leaves keeps_pure keeps_throw keeps_ofExcept leaves_pure leaves_iff)

namespace Recording

variable {ω υ τ : Type} {view : SelectionSet → υ} {log : ω → τ} {host : Host ω}

/-! ### Records -/

section Records

variable (host) {P : Session ω → Prop}

theorem keeps_deliverCut (hdeliver : ∀ r, Keeps P (deliver host r)) : ∀ raws,
    Keeps P (deliverCut host raws)
  | [] => keeps_pure true
  | raw :: rest => by
    rw [deliverCut]
    refine keeps_getSet.bind fun set => ?_
    split
    · refine (keeps_ofExcept _).bind fun record => (hdeliver record).bind fun more => ?_
      split
      · exact keeps_deliverCut hdeliver rest
      · exact keeps_pure false
    · exact keeps_throw _

theorem keeps_deliverRecords {data : Bytes}
    (hcut : Keeps P (deliverCut host (ringRecords data).values)) :
    Keeps P (deliverRecords host data) := by
  rw [deliverRecords]
  refine Keeps.bind hcut fun more => ?_
  split
  · split
    · exact keeps_throw _
    · exact keeps_pure true
  · exact keeps_pure false

theorem keeps_drainCpu (hdrain : ∀ d, Keeps P (outside (host.drain d)))
    (hdeliver : ∀ r, Keeps P (deliver host r)) (cpu : Nat) : Keeps P (drainCpu host cpu) := by
  rw [drainCpu]
  refine keeps_getSet.bind fun set => ?_
  split
  · exact keeps_pure true
  · exact (hdrain _).bind fun data =>
      keeps_deliverRecords host (keeps_deliverCut host hdeliver _)

theorem keeps_drainCpus (hdrain : ∀ cpu, Keeps P (drainCpu host cpu)) : ∀ cpus,
    Keeps P (drainCpus host cpus)
  | [] => keeps_pure true
  | cpu :: rest => by
    rw [drainCpus]
    refine (hdrain cpu).bind fun more => ?_
    split
    · exact keeps_drainCpus hdrain rest
    · exact keeps_pure false

theorem keeps_finish (hdrain : ∀ cpu, Keeps P (drainCpu host cpu)) : Keeps P (finish host) :=
  keeps_getSet.bind fun _ => keeps_drainCpus host hdrain _

/-- Handing records on changes neither the set nor what a list of drained
buffers shows. -/
theorem leaves_deliver (hdeliver : ∀ r, Leaves log (.ofState (host.deliver r))) (r : Record) :
    Leaves (Session.seen view log) (deliver host r) := by
  refine leaves_getSet.bind fun set => ?_
  split
  · exact leaves_outside (hdeliver r)
  · exact leaves_pure true

/-- **Draining a buffer leaves the set alone.** -/
theorem leaves_drainCpu (cpu : Nat) : Leaves Session.set (drainCpu host cpu) := by
  have hdeliver : ∀ r, Leaves (Session.seen id fun _ => ()) (deliver host r) :=
    leaves_deliver host fun _ _ => rfl
  exact leaves_iff.mpr fun v => keeps_drainCpu host (fun _ _ h => h)
    (fun r s h => (congrArg Prod.fst (hdeliver r s)).trans h) cpu

theorem leaves_drainCpu_loop (cpu : Nat) : Leaves Session.loop (drainCpu host cpu) := by
  have hdeliver : ∀ r, Leaves Session.loop (deliver host r) := fun r =>
    leaves_getSet.bind fun set => by
      split
      · exact fun _ => rfl
      · exact leaves_pure true
  exact leaves_iff.mpr fun v => keeps_drainCpu host (fun _ _ h => h)
    (fun r => leaves_iff.mp (hdeliver r) v) cpu

theorem leaves_finish : Leaves Session.set (finish host) :=
  leaves_iff.mpr fun v => keeps_finish host fun cpu => leaves_iff.mp (leaves_drainCpu host cpu) v

end Records

/-! ### Following the cpus -/

/-- Announce the ids of the descriptors on a cpu that has come, and let the
loop wait for its buffer. -/
def announce (host : Host ω) (cpu : Nat) : Recording ω Bool := do
  let ids := announcement (← getSet) cpu
  modifySet (·.learnIds ids)
  if (← getSet).counting || ids.isEmpty then return true
  else if ← deliver host (.eventIds ids) then
    watchBuffer cpu
    return true
  else return false

theorem keeps_announce {P : Session ω → Prop} (host : Host ω) {cpu : Nat}
    (hlearn : ∀ ids, Keeps P (modifySet (·.learnIds ids)))
    (hdeliver : ∀ r, Keeps P (deliver host r)) (hwatch : Keeps P (watchBuffer cpu)) :
    Keeps P (announce host cpu) := by
  rw [announce]
  refine keeps_getSet.bind fun set => (hlearn _).bind fun _ => keeps_getSet.bind fun set' => ?_
  split
  · exact keeps_pure true
  · refine (hdeliver _).bind fun more => ?_
    split
    · exact hwatch.bind fun _ => keeps_pure true
    · exact keeps_pure false

theorem enterCpu_eq (host : Host ω) (cpu : Nat) : enterCpu host cpu = (do
    let threads ← targetThreads host
    reopenPairs host cpu (pairs (← getSet).groups.length threads)
    Effect.onFailure (activateCpu host cpu) (closeOn host cpu)
    announce host cpu) := rfl

/-! ### Following the cpus in general -/

section Turns

variable {P : Session ω → Prop}

theorem keeps_leaveCpu {cpu : Nat} (hread : ∀ d, Keeps P (outside (host.readCounter d)))
    (hkeep : ∀ d info, Keeps P (modifySet (·.keepReading d info)))
    (hunwatch : Keeps P (unwatchBuffer cpu)) (hdrain : Keeps P (drainCpu host cpu))
    (hclose : Keeps P (closeOn host cpu)) : Keeps P (leaveCpu host cpu) := by
  rw [leaveCpu]
  refine keeps_getSet.bind fun set => ?_
  split
  · exact keeps_getSet.bind fun set => (keeps_keepReadings hread hkeep _).bind fun _ =>
      hclose.bind fun _ => keeps_pure true
  · refine hunwatch.bind fun _ => hdrain.bind fun more => ?_
    split
    · exact hclose.bind fun _ => keeps_pure true
    · exact keeps_pure false

theorem keeps_enterCpu {cpu : Nat} (hthreads : Keeps P (targetThreads host))
    (hreopen : ∀ pairs, Keeps P (reopenPairs host cpu pairs))
    (hactivate : Keeps P (activateCpu host cpu)) (hclose : Keeps P (closeOn host cpu))
    (hannounce : Keeps P (announce host cpu)) : Keeps P (enterCpu host cpu) := by
  rw [enterCpu_eq]
  exact hthreads.bind fun threads => keeps_getSet.bind fun set => (hreopen _).bind fun _ =>
    (hactivate.onFailure hclose).bind fun _ => hannounce

theorem keeps_leaveCpus (hnote : ∀ n, Keeps P (outside' (host.note n)))
    (hleave : ∀ cpu, Keeps P (leaveCpu host cpu)) : ∀ cpus, Keeps P (leaveCpus host cpus)
  | [] => keeps_pure true
  | cpu :: rest => by
    rw [leaveCpus]
    refine (hnote _).bind fun _ => (hleave cpu).bind fun more => ?_
    split
    · exact keeps_leaveCpus hnote hleave rest
    · exact keeps_pure false

theorem keeps_enterCpus (hnote : ∀ n, Keeps P (outside' (host.note n)))
    (henter : ∀ cpu, Keeps P (enterCpu host cpu)) : ∀ cpus, Keeps P (enterCpus host cpus)
  | [] => keeps_pure true
  | cpu :: rest => by
    rw [enterCpus]
    refine (hnote _).bind fun _ => (henter cpu).bind fun more => ?_
    split
    · exact keeps_enterCpus hnote henter rest
    · exact keeps_pure false

end Turns

end Recording

/-- The cpus that a set follows and that are not online any more. -/
def SelectionSet.gone (s : SelectionSet) (online : List Nat) : List Nat :=
  s.onlineCpus.filter fun c => !online.contains c && s.follows c

/-- The cpus that a set follows and that were not online before. -/
def SelectionSet.come (s : SelectionSet) (online : List Nat) : List Nat :=
  online.filter fun c => !s.onlineCpus.contains c && s.follows c

namespace Recording

variable {ω τ : Type} {log : ω → τ} {host : Host ω}

/-- Leave the cpus that have gone and enter those that have come. -/
def turn (host : Host ω) (gone come online : List Nat) : Recording ω Bool := do
  if ← leaveCpus host gone then
    if ← enterCpus host come then
      modifySet fun set => { set with onlineCpus := online }
      return true
    else return false
  else return false

theorem followCpus_eq (host : Host ω) : followCpus host = (do
    let set ← getSet
    let online ← outside host.onlineCpus
    turn host (set.gone online) (set.come online) online) := rfl

/-- **Following the cpus keeps** what leaving and entering each of them keep. -/
theorem keeps_followCpus {P : Session ω → Prop} (honline : Keeps P (outside host.onlineCpus))
    (hnote : ∀ n, Keeps P (outside' (host.note n))) (hleave : ∀ cpu, Keeps P (leaveCpu host cpu))
    (henter : ∀ cpu, Keeps P (enterCpu host cpu))
    (hknown : ∀ online, Keeps P (modifySet fun set => { set with onlineCpus := online })) :
    Keeps P (followCpus host) := by
  rw [followCpus_eq]
  refine keeps_getSet.bind fun set => honline.bind fun online => ?_
  rw [turn]
  refine (keeps_leaveCpus hnote hleave _).bind fun more => ?_
  split
  · refine (keeps_enterCpus hnote henter _).bind fun more => ?_
    split
    · exact (hknown online).bind fun _ => keeps_pure true
    · exact keeps_pure false
  · exact keeps_pure false

/-! ### Following the cpus with the attrs and the routing -/

/-- A property of the attrs, the routing and what the outside lists, which
draining and announcing keep. -/
structure Followed (host : Host ω) (log : ω → τ) (P : Session ω → Prop) : Prop where
  silent : host.Silent log
  of_seen : ∀ s s', s'.seen SelectionSet.routed log = s.seen SelectionSet.routed log → P s → P s'
  drainCpu : ∀ cpu, Keeps P (drainCpu host cpu)
  announce : ∀ cpu, Keeps P (announce host cpu)

namespace Followed

variable {P : Session ω → Prop} (h : Followed host log P)

include h

theorem keeps_of_leaves {α : Type} {x : Recording ω α}
    (hx : Leaves (Session.seen SelectionSet.routed log) x) : Keeps P x := hx.keeps h.of_seen

theorem keeps_closeOn (cpu : Nat) : Keeps P (closeOn host cpu) :=
  h.keeps_of_leaves (leaves_closeOn h.silent cpu)

theorem keeps_leaveCpu (cpu : Nat) : Keeps P (leaveCpu host cpu) :=
  Recording.keeps_leaveCpu (fun d => h.keeps_of_leaves (leaves_outside (h.silent.readCounter d)))
    (fun d info => h.keeps_of_leaves (leaves_routed_of_listed
      (leaves_modifySet fun set => SelectionSet.listed_keepReading set d info)))
    (h.keeps_of_leaves (leaves_routed_of_listed (leaves_unwatchBuffer loopless_listed cpu)))
    (h.drainCpu cpu) (h.keeps_closeOn cpu)

theorem keeps_enterCpu (cpu : Nat) : Keeps P (enterCpu host cpu) :=
  Recording.keeps_enterCpu (h.keeps_of_leaves (leaves_targetThreads h.silent.quiet))
    (fun pairs => h.keeps_of_leaves (leaves_reopenPairs h.silent cpu pairs))
    (h.keeps_of_leaves (leaves_routed_of_listed (leaves_activateCpu h.silent.bufferless cpu)))
    (h.keeps_closeOn cpu) (h.announce cpu)

/-- **Following the cpus keeps the property.** -/
theorem keeps_followCpus : Keeps P (followCpus host) :=
  Recording.keeps_followCpus (h.keeps_of_leaves (leaves_outside h.silent.onlineCpus))
    (fun n => h.keeps_of_leaves (leaves_outside (h.silent.note n))) h.keeps_leaveCpu
    h.keeps_enterCpu (fun _ => h.keeps_of_leaves (leaves_modifySet fun _ => rfl))

theorem keeps_finish : Keeps P (finish host) := Recording.keeps_finish host h.drainCpu

end Followed

end Recording
end Profiler
