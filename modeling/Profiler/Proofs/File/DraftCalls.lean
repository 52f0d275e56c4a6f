/-
# What a run of calls leaves of a record file

The calls that write a file come in any order, and some are rejected: attrs
that are none or not the first, data before the attrs, features without a
valid number. A rejected call leaves the draft as it was, and an accepted call
adds to it what it has to add (`FileDraft.Call.run_eq_ok_iff`). So a run of
calls leaves what its accepted calls add up to (`FileDraft.run_eq`), and the
rejected ones might as well not have been made (`FileDraft.run_accepted`).

Key definitions: `FileDraft.Call`, `FileDraft.Call.run`, `FileDraft.run`,
`FileDraft.accepted`, `FileDraft.Call.Refused`.
Key theorems: `FileDraft.Call.run_eq_ok_iff`, `FileDraft.Call.run_eq_error_iff`,
`FileDraft.run_eq`, `FileDraft.run_accepted`.
-/
import Profiler.File.Draft
import Profiler.Proofs.File.Frames
import Profiler.Proofs.OrderedMap

namespace Profiler
namespace FileDraft

/-- A call that writes to a file. -/
inductive Call where
  | attrs (attrs : List AttrWithIds)
  | data (bs : Bytes)
  | record (r : Record)
  | feature (f : Feature) (payload : Bytes)
  | value (v : FeatureValue)
  deriving Repr

namespace Call

/-- The draft after the call, or why it is rejected. -/
def run (d : FileDraft) : Call → Except Misuse FileDraft
  | attrs as => d.writeAttrs as
  | data bs => d.writeData bs
  | record r => d.writeRecord r
  | feature f payload => d.writeFeature f payload
  | value v => d.writeValue v

def attrs? : Call → Option (List AttrWithIds)
  | attrs as => some as
  | _ => none

def bytes : Call → Bytes
  | data bs => bs
  | record r => r.splitForFile.flatten
  | _ => []

def bindings : Call → List (Feature × Bytes)
  | feature f payload => [(f, payload)]
  | value v => [(v.feature, v.payload)]
  | _ => []

/-- Whether the call is rejected, given whether there are attrs already. -/
def Refused (opened : Prop) : Call → Prop
  | attrs as => opened ∨ as = []
  | data _ => ¬ opened
  | record _ => ¬ opened
  | feature f _ => Feature.bound ≤ f
  | value v => Feature.bound ≤ v.feature

/-- What an accepted call leaves. -/
def apply (d : FileDraft) (c : Call) : FileDraft where
  attrs? := c.attrs?.or d.attrs?
  data := d.data ++ c.bytes
  features := c.bindings.foldl (fun (m : OrderedMap Feature Bytes) e => m.insert e.1 e.2) d.features

end Call

/-- A call, and the draft as it was if the call is rejected. -/
def step (d : FileDraft) (c : Call) : FileDraft :=
  match c.run d with
  | .ok d' => d'
  | .error _ => d

/-- The draft after calls, of which some may be rejected. -/
def run (d : FileDraft) (calls : List Call) : FileDraft := calls.foldl step d

/-- The calls that are accepted. -/
def accepted (d : FileDraft) : List Call → List Call
  | [] => []
  | c :: rest =>
    match c.run d with
    | .ok d' => c :: accepted d' rest
    | .error _ => accepted d rest

/-! ### One call -/

section OneCall

variable {d d' : FileDraft} {c : Call}

theorem foldlM_writeData (h : d.attrs?.isSome = true) (pieces : List Bytes) :
    pieces.foldlM writeData d = .ok { d with data := d.data ++ pieces.flatten } := by
  induction pieces generalizing d with
  | nil => simp [pure, Except.pure]
  | cons bs rest ih =>
    have hdata : d.writeData bs = .ok { d with data := d.data ++ bs } := if_pos h
    have hrest : rest.foldlM writeData { d with data := d.data ++ bs } =
        .ok { d with data := d.data ++ bs ++ rest.flatten } := ih h
    rw [List.foldlM_cons, hdata]
    refine bind_eq_ok_iff.mpr ⟨_, rfl, ?_⟩
    rw [hrest, List.flatten_cons, List.append_assoc]

theorem writeAttrs_eq_ok_iff {as : List AttrWithIds} :
    writeAttrs {} as = .ok d ↔ as ≠ [] ∧ d = { attrs? := some as } := by
  cases as with
  | nil => exact ⟨nofun, fun h => absurd rfl h.1⟩
  | cons a rest => exact ⟨fun h => ⟨nofun, (Except.ok.inj h).symm⟩, fun h => congrArg _ h.2.symm⟩

theorem foldlM_writeRecord (h : d.attrs?.isSome = true) (rs : List Record) :
    rs.foldlM writeRecord d =
      .ok { d with data := d.data ++ rs.flatMap fun r => r.splitForFile.flatten } := by
  induction rs generalizing d with
  | nil => simp [pure, Except.pure]
  | cons r rest ih =>
    have hrecord : d.writeRecord r = .ok { d with data := d.data ++ r.splitForFile.flatten } :=
      foldlM_writeData h _
    have hrest : rest.foldlM writeRecord { d with data := d.data ++ r.splitForFile.flatten } =
        .ok { d with data := d.data ++ r.splitForFile.flatten ++
          rest.flatMap fun r => r.splitForFile.flatten } := ih h
    rw [List.foldlM_cons, hrecord]
    refine bind_eq_ok_iff.mpr ⟨_, rfl, ?_⟩
    rw [hrest, List.flatMap_cons, List.append_assoc]

theorem writeData_of_no_attrs (h : ¬ d.attrs?.isSome = true) (bs : Bytes) :
    d.writeData bs = .error .dataBeforeAttrs := if_neg h

/-- A record has at least one piece. -/
theorem writeRecord_of_no_attrs (h : ¬ d.attrs?.isSome = true) (r : Record) :
    d.writeRecord r = .error .dataBeforeAttrs := by
  have hpiece : r.splitForFile ≠ [] := by
    rw [Record.splitForFile_eq]
    unfold Record.pieces
    split
    · exact nofun
    · simp
  unfold writeRecord
  cases hpieces : r.splitForFile with
  | nil => exact absurd hpieces hpiece
  | cons bs rest =>
    rw [List.foldlM_cons, writeData_of_no_attrs h]
    rfl

namespace Call

theorem run_of_refused (h : c.Refused (d.attrs?.isSome = true)) : ∃ e, c.run d = .error e := by
  cases c with
  | attrs as =>
    show ∃ e, d.writeAttrs as = .error e
    unfold writeAttrs
    by_cases hopened : d.attrs?.isSome = true
    · exact ⟨_, if_pos hopened⟩
    · have hnone : as = [] := h.resolve_left hopened
      exact ⟨.attrsEmpty, by rw [if_neg hopened, hnone]; rfl⟩
  | data bs => exact ⟨_, writeData_of_no_attrs h bs⟩
  | record r => exact ⟨_, writeRecord_of_no_attrs h r⟩
  | feature f payload => exact ⟨_, if_neg (Nat.not_lt.mpr h)⟩
  | value v => exact ⟨_, if_neg (Nat.not_lt.mpr h)⟩

theorem run_of_not_refused (h : ¬ c.Refused (d.attrs?.isSome = true)) :
    c.run d = .ok (c.apply d) := by
  have hdata : d.data ++ [] = d.data := List.append_nil d.data
  cases c with
  | attrs as =>
    have hopened : ¬ d.attrs?.isSome = true := fun hopened => h (.inl hopened)
    have hsome : ¬ as.isEmpty = true := fun hnil => h (.inr (List.isEmpty_iff.mp hnil))
    have happly : (attrs as).apply d = ⟨some as, d.data ++ [], d.features⟩ := rfl
    show d.writeAttrs as = _
    unfold writeAttrs
    rw [if_neg hopened, if_neg hsome, happly, hdata]
  | data bs => exact if_pos (not_not.mp h)
  | record r => exact foldlM_writeData (not_not.mp h) _
  | feature f payload =>
    have happly : (feature f payload).apply d =
        ⟨d.attrs?, d.data ++ [], d.features.insert f payload⟩ := rfl
    rw [happly, hdata]
    exact if_pos (Nat.not_le.mp h)
  | value v =>
    have happly : (value v).apply d =
        ⟨d.attrs?, d.data ++ [], d.features.insert v.feature v.payload⟩ := rfl
    rw [happly, hdata]
    exact if_pos (Nat.not_le.mp h)

/-- **An accepted call leaves what it adds.** -/
theorem run_eq_ok_iff :
    c.run d = .ok d' ↔ ¬ c.Refused (d.attrs?.isSome = true) ∧ d' = c.apply d := by
  by_cases h : c.Refused (d.attrs?.isSome = true)
  · obtain ⟨e, he⟩ := run_of_refused h
    simp [h, he]
  · rw [run_of_not_refused h]
    exact ⟨fun hok => ⟨h, (Except.ok.inj hok).symm⟩, fun hok => by rw [hok.2]⟩

/-- **Calls of these kinds are rejected, and no others.** -/
theorem run_eq_error_iff :
    (∃ e, c.run d = .error e) ↔ c.Refused (d.attrs?.isSome = true) := by
  by_cases h : c.Refused (d.attrs?.isSome = true)
  · simp [h, run_of_refused h]
  · simp [h, run_of_not_refused h]

end Call

end OneCall

/-! ### Any calls -/

section AnyCalls

variable {d : FileDraft} {calls : List Call}

/-- **A run of calls leaves what its accepted calls add up to.** -/
theorem run_eq (d : FileDraft) (calls : List Call) :
    run d calls = (accepted d calls).foldl Call.apply d := by
  induction calls generalizing d with
  | nil => rfl
  | cons c rest ih =>
    unfold run at ih ⊢
    rw [List.foldl_cons, step, accepted]
    cases hrun : c.run d with
    | error e => exact ih d
    | ok d' =>
      obtain ⟨-, rfl⟩ := Call.run_eq_ok_iff.mp hrun
      exact ih _

theorem accepted_accepted (d : FileDraft) (calls : List Call) :
    accepted d (accepted d calls) = accepted d calls := by
  induction calls generalizing d with
  | nil => rfl
  | cons c rest ih =>
    rw [accepted]
    cases hrun : c.run d with
    | error e => exact ih d
    | ok d' =>
      have hrest : accepted d (c :: accepted d' rest) = c :: accepted d' (accepted d' rest) := by
        rw [accepted, hrun]
      rw [hrest, ih d']

/-- **Rejected calls leave no trace.** -/
theorem run_accepted (d : FileDraft) (calls : List Call) :
    run d (accepted d calls) = run d calls := by
  rw [run_eq, run_eq, accepted_accepted]

theorem accepted_cons (d : FileDraft) (c : Call) (rest : List Call) :
    accepted d (c :: rest) = accepted d rest ∧ c.Refused (d.attrs?.isSome = true) ∨
      accepted d (c :: rest) = c :: accepted (c.apply d) rest ∧
        ¬ c.Refused (d.attrs?.isSome = true) := by
  rw [accepted]
  cases hrun : c.run d with
  | error e => exact .inl ⟨rfl, Call.run_eq_error_iff.mp ⟨e, hrun⟩⟩
  | ok d' =>
    obtain ⟨hallowed, rfl⟩ := Call.run_eq_ok_iff.mp hrun
    exact .inr ⟨rfl, hallowed⟩

/-! ### What accepted calls add up to -/

theorem data_foldl_apply (d : FileDraft) (log : List Call) :
    (log.foldl Call.apply d).data = d.data ++ log.flatMap Call.bytes := by
  induction log generalizing d with
  | nil => exact (List.append_nil _).symm
  | cons c rest ih =>
    rw [List.foldl_cons, ih, List.flatMap_cons, ← List.append_assoc]
    rfl

theorem features_foldl_apply (d : FileDraft) (log : List Call) :
    (log.foldl Call.apply d).features = (log.flatMap Call.bindings).foldl
      (fun (m : OrderedMap Feature Bytes) e => m.insert e.1 e.2) d.features := by
  induction log generalizing d with
  | nil => rfl
  | cons c rest ih =>
    rw [List.foldl_cons, ih, List.flatMap_cons, List.foldl_append]
    rfl

theorem attrs?_foldl_apply {log : List Call} (h : ∀ as, .attrs as ∉ log) :
    (log.foldl Call.apply d).attrs? = d.attrs? := by
  induction log generalizing d with
  | nil => rfl
  | cons c rest ih =>
    rw [List.foldl_cons, ih fun as hmem => h as (List.mem_cons_of_mem c hmem)]
    cases c with
    | attrs as => exact absurd List.mem_cons_self (h as)
    | _ => rfl

/-- A draft has attrs if it had some or a call brought them. -/
theorem isSome_attrs?_run_iff : (run d calls).attrs?.isSome = true ↔
    d.attrs?.isSome = true ∨ ∃ as, .attrs as ∈ accepted d calls := by
  have hlog : ∀ (log : List Call) (d : FileDraft), (log.foldl Call.apply d).attrs?.isSome = true ↔
      d.attrs?.isSome = true ∨ ∃ as, .attrs as ∈ log := by
    intro log
    induction log with
    | nil => simp
    | cons c rest ih =>
      intro d
      rw [List.foldl_cons, ih]
      cases c with
      | attrs as => simp [Call.apply, Call.attrs?]
      | _ => simp [Call.apply, Call.attrs?]
  rw [run_eq]
  exact hlog _ d

/-- Attrs are accepted once. -/
theorem attrs_not_mem_accepted (h : d.attrs?.isSome = true) (as : List AttrWithIds) :
    .attrs as ∉ accepted d calls := by
  induction calls generalizing d with
  | nil => exact nofun
  | cons c rest ih =>
    rcases accepted_cons d c rest with ⟨heq, -⟩ | ⟨heq, hallowed⟩
    · rw [heq]
      exact ih h
    · have hopened : (c.apply d).attrs?.isSome = true := by
        show (c.attrs?.or d.attrs?).isSome = true
        rw [Option.isSome_or, h, Bool.or_true]
      rw [heq, List.mem_cons]
      rintro (rfl | hmem)
      · exact hallowed (.inl h)
      · exact ih hopened hmem

/-- Attrs that were accepted are those of the draft. -/
theorem attrs?_run_of_mem {as : List AttrWithIds} (h : .attrs as ∈ accepted d calls) :
    (run d calls).attrs? = some as ∧ as ≠ [] := by
  rw [run_eq]
  induction calls generalizing d with
  | nil => exact nomatch h
  | cons c rest ih =>
    rcases accepted_cons d c rest with ⟨heq, -⟩ | ⟨heq, hallowed⟩
    · rw [heq] at h ⊢
      exact ih h
    · rw [heq] at h ⊢
      rcases List.mem_cons.mp h with rfl | hmem
      · have hnone : ∀ bs, .attrs bs ∉ accepted ((Call.attrs as).apply d) rest :=
          attrs_not_mem_accepted rfl
        have hstays : ((accepted ((Call.attrs as).apply d) rest).foldl Call.apply
            ((Call.attrs as).apply d)).attrs? = some as := attrs?_foldl_apply hnone
        exact ⟨hstays, fun hnil => hallowed (.inr hnil)⟩
      · exact ih hmem

/-- Features that were accepted have a valid number. -/
theorem lt_bound_of_mem_bindings {e : Feature × Bytes}
    (h : e ∈ (accepted d calls).flatMap Call.bindings) : e.1 < Feature.bound := by
  induction calls generalizing d with
  | nil => exact nomatch h
  | cons c rest ih =>
    rcases accepted_cons d c rest with ⟨heq, -⟩ | ⟨heq, hallowed⟩
    · rw [heq] at h
      exact ih h
    · rw [heq, List.flatMap_cons] at h
      rcases List.mem_append.mp h with hmem | hmem
      · cases c with
        | feature f payload =>
          rw [List.mem_singleton.mp hmem]
          exact Nat.not_le.mp hallowed
        | value v =>
          rw [List.mem_singleton.mp hmem]
          exact Nat.not_le.mp hallowed
        | _ => exact nomatch hmem
      · exact ih hmem

end AnyCalls

end FileDraft
end Profiler
