import WireCatalog.Proofs.Confinement
import WireCatalog.Proofs.Convergence

/-! # Executors make no difference

An executor may run a task, refuse it or lose it, and a caller who waits for a registration makes a
lost one itself. So whatever becomes of the tasks, a call does what it does without an executor, but
for the journal (`answerAs_quiet`): a registration happens once, under the same name.

A caller who does not wait may hand over many declarations, and the thread publishes them in between
or later. What comes of it is what publishing them one after another comes to, since nothing but the
tasks of the thread changes the catalogue (`replay_registration`). -/

namespace WireCatalog

/-! ### Registries without their journals -/

namespace Registry

/-- The registry with an empty journal. -/
def quiet (r : Registry) : Registry := { r with journal := [] }

variable {r r' : Registry}

theorem quiet_log (r : Registry) (es : List Event) : (r.log es).quiet = r.quiet := rfl

/-- Registries that are the same but for their journals publish under the same names and come to the
same result. -/
theorem publishFrom_quiet (decl : Declaration) (attempt left : ℕ) {r r' : Registry}
    (h : r.quiet = r'.quiet) :
    (publishFrom decl attempt left r).1 = (publishFrom decl attempt left r').1 ∧
      (publishFrom decl attempt left r).2.quiet = (publishFrom decl attempt left r').2.quiet := by
  obtain ⟨snapshot, names, drawn, nextSerial, revision, journal⟩ := r
  obtain ⟨_, _, _, _, _, journal'⟩ := r'
  simp only [quiet, Registry.mk.injEq, and_true] at h
  obtain ⟨rfl, rfl, rfl, rfl, rfl⟩ := h
  unfold publishFrom
  simp only [draw]
  cases snapshot.offer decl (names drawn) nextSerial with
  | published x s => exact ⟨rfl, rfl⟩
  | present x => exact ⟨rfl, rfl⟩
  | aliasTaken n x => exact ⟨rfl, rfl⟩
  | refused x e => exact ⟨rfl, rfl⟩
  | nameTaken n x =>
      cases left with
      | zero => exact ⟨rfl, rfl⟩
      | succ left =>
          dsimp only
          exact publishFrom_quiet decl (attempt + 1) left rfl
termination_by left

theorem publish_quiet (h : r.quiet = r'.quiet) (decl : Declaration) :
    (r.publish decl).1 = (r'.publish decl).1 ∧
      (r.publish decl).2.quiet = (r'.publish decl).2.quiet :=
  publishFrom_quiet decl 1 1 (by rw [quiet_log, quiet_log, h])

end Registry

namespace Catalogue

/-- The catalogue with an empty journal and without its executor. -/
def quiet (c : Catalogue) : Catalogue :=
  { c with registry := c.registry.quiet, executor := .none }

variable {c c' : Catalogue}

theorem quiet_log (c : Catalogue) (es : List Event) : (c.log es).quiet = c.quiet := rfl

theorem quiet_remember (h : c.quiet = c'.quiet) (cls : ClassName) (x : PacketType) :
    (c.remember cls x).quiet = (c'.remember cls x).quiet :=
  congrArg (fun d : Catalogue => d.remember cls x) h

/-! ### Calls -/

/-- The answer to a request whose task is left to the executor of the catalogue. -/
def answer (c : Catalogue) : Request → PacketType × Catalogue
  | .fromId k cls => c.fromId k cls
  | .fromClassOrId k cls => c.fromClassOrId k cls
  | .fromLegacy id d => c.fromLegacy id d

theorem answer_eq (c : Catalogue) (q : Request) : c.answer q = c.answerAs c.executor.fate q := by
  cases q <;> rfl

/-- The answers to requests, one after another, each with the catalogue after it. -/
def answersAs (c : Catalogue) : List (Fate × Request) → List (PacketType × Catalogue)
  | [] => []
  | (fate, q) :: qs => c.answerAs fate q :: (c.answerAs fate q).2.answersAs qs

/-- The same, with every task left to the executor. -/
def answers (c : Catalogue) : List Request → List (PacketType × Catalogue)
  | [] => []
  | q :: qs => c.answer q :: (c.answer q).2.answers qs

/-! ### One call -/

theorem quiet_iff : c.quiet = c'.quiet ↔ c.registry.quiet = c'.registry.quiet ∧
    c.binder = c'.binder ∧ c.peer = c'.peer ∧ c.settings = c'.settings := by
  simp [quiet]

theorem snapshot_eq (h : c.quiet = c'.quiet) : c.snapshot = c'.snapshot := by
  have hs := congrArg snapshot h
  exact hs

theorem publish_quiet (h : c.quiet = c'.quiet) (decl : Declaration) :
    (c.publish decl).1 = (c'.publish decl).1 ∧
      (c.publish decl).2.quiet = (c'.publish decl).2.quiet := by
  obtain ⟨hr, hrest⟩ := quiet_iff.mp h
  obtain ⟨hresult, hafter⟩ := Registry.publish_quiet hr decl
  exact ⟨hresult, quiet_iff.mpr ⟨hafter, hrest⟩⟩

/-- A registration that the caller waits for comes to the same under every fate of its task. -/
theorem registerNow_quiet (h : c.quiet = c'.quiet) (fate fate' : Fate) (decl : Declaration) :
    (c.registerNow fate decl).1 = (c'.registerNow fate' decl).1 ∧
      (c.registerNow fate decl).2.quiet = (c'.registerNow fate' decl).2.quiet := by
  -- Run or lost, the task comes to one publication; only the events before it differ.
  obtain ⟨es, he⟩ := c.registerNow_eq fate decl
  obtain ⟨es', he'⟩ := c'.registerNow_eq fate' decl
  rw [he, he']
  exact publish_quiet (by rw [quiet_log, quiet_log, h]) decl

theorem detach_quiet (h : c.quiet = c'.quiet) (decl : Declaration) (e : CatalogueError) :
    (c.detach decl e).1 = (c'.detach decl e).1 ∧
      (c.detach decl e).2.quiet = (c'.detach decl e).2.quiet := by
  have hresult := congrArg (fun d : Catalogue => (d.detach decl e).1) h
  have hafter := congrArg (fun d : Catalogue => (d.detach decl e).2.quiet) h
  exact ⟨hresult, hafter⟩

theorem fromIdAs_quiet (h : c.quiet = c'.quiet) (fate fate' : Fate) (k : WireKey)
    (cls : ClassName) :
    (c.fromIdAs fate k cls).1 = (c'.fromIdAs fate' k cls).1 ∧
      (c.fromIdAs fate k cls).2.quiet = (c'.fromIdAs fate' k cls).2.quiet := by
  unfold fromIdAs resolveCurrent resolveName index
  rw [← snapshot_eq h]
  cases c.snapshot.index.byKey? k with
  | some x => exact ⟨rfl, h⟩
  | none =>
      have hmiss : (c.log [.stage .miss k]).quiet = (c'.log [.stage .miss k]).quiet := h
      have hdecl : (c.log [.stage .miss k]).discovered k cls =
          (c'.log [.stage .miss k]).discovered k cls := by
        rw [discovered, discovered, (quiet_iff.mp hmiss).2.2.1]
      dsimp only
      rw [← snapshot_eq hmiss, ← hdecl]
      cases (c.log [.stage .miss k]).snapshot.index.byName? k.channel cls.simple with
      | some x => exact ⟨rfl, quiet_remember h cls x⟩
      | none =>
          have hnow :=
            registerNow_quiet hmiss fate fate' ((c.log [.stage .miss k]).discovered k cls)
          dsimp only
          generalize (c.log [.stage .miss k]).registerNow fate _ = p at hnow ⊢
          generalize (c'.log [.stage .miss k]).registerNow fate' _ = p' at hnow ⊢
          obtain ⟨result, d⟩ := p
          obtain ⟨result', d'⟩ := p'
          obtain ⟨rfl, hafter⟩ := hnow
          cases result with
          | ok r => exact ⟨rfl, quiet_remember hafter cls r.packetType⟩
          | error e => exact detach_quiet hafter _ e

theorem fromClassOrIdAs_quiet (h : c.quiet = c'.quiet) (fate fate' : Fate) (k : WireKey)
    (cls : ClassName) :
    (c.fromClassOrIdAs fate k cls).1 = (c'.fromClassOrIdAs fate' k cls).1 ∧
      (c.fromClassOrIdAs fate k cls).2.quiet = (c'.fromClassOrIdAs fate' k cls).2.quiet := by
  unfold fromClassOrIdAs resolveName index
  rw [← snapshot_eq h, ← (quiet_iff.mp h).2.1]
  cases c.binder.typeOf? cls with
  | some x => exact ⟨rfl, h⟩
  | none =>
      dsimp only
      cases c.snapshot.index.byName? k.channel cls.simple with
      | some x => exact ⟨rfl, quiet_remember h cls x⟩
      | none => exact fromIdAs_quiet h fate fate' k cls

theorem fromLegacyAs_quiet (h : c.quiet = c'.quiet) (fate fate' : Fate) (id : Int)
    (d : Direction) :
    (c.fromLegacyAs fate id d).1 = (c'.fromLegacyAs fate' id d).1 ∧
      (c.fromLegacyAs fate id d).2.quiet = (c'.fromLegacyAs fate' id d).2.quiet := by
  unfold fromLegacyAs resolveLegacy index
  rw [← snapshot_eq h]
  cases c.snapshot.index.byLegacyId? id (some d) with
  | some x => exact ⟨rfl, h⟩
  | none =>
      have hmiss : (c.log [.stage .miss (discoveredLegacy id d).key]).quiet =
          (c'.log [.stage .miss (discoveredLegacy id d).key]).quiet := h
      have hnow := registerNow_quiet hmiss fate fate' (discoveredLegacy id d)
      dsimp only
      generalize (c.log _).registerNow fate _ = p at hnow ⊢
      generalize (c'.log _).registerNow fate' _ = p' at hnow ⊢
      obtain ⟨result, d⟩ := p
      obtain ⟨result', d'⟩ := p'
      obtain ⟨rfl, hafter⟩ := hnow
      cases result with
      | ok r => exact ⟨rfl, hafter⟩
      | error e => exact detach_quiet hafter _ e

theorem answerAs_quiet (h : c.quiet = c'.quiet) (fate fate' : Fate) (q : Request) :
    (c.answerAs fate q).1 = (c'.answerAs fate' q).1 ∧
      (c.answerAs fate q).2.quiet = (c'.answerAs fate' q).2.quiet := by
  cases q with
  | fromId k cls => exact fromIdAs_quiet h fate fate' k cls
  | fromClassOrId k cls => exact fromClassOrIdAs_quiet h fate fate' k cls
  | fromLegacy id d => exact fromLegacyAs_quiet h fate fate' id d

/-! ### Any number of calls -/

/-- What a caller sees after a call: the answer, how many provisional names were drawn, the
published snapshot and the classes that are bound. -/
def seen (p : PacketType × Catalogue) : PacketType × ℕ × Snapshot × Binder :=
  (p.1, p.2.registry.drawn, p.2.snapshot, p.2.binder)

theorem seen_congr {p p' : PacketType × Catalogue} (h : p.1 = p'.1)
    (hq : p.2.quiet = p'.2.quiet) : seen p = seen p' := by
  obtain ⟨hr, hb, _⟩ := quiet_iff.mp hq
  have hd : p.2.registry.drawn = p'.2.registry.drawn := congrArg (·.drawn) hr
  rw [seen, seen, h, hd, snapshot_eq hq, hb]

theorem answersAs_quiet (h : c.quiet = c'.quiet) (qs : List (Fate × Request)) :
    (c.answersAs qs).map seen = (c'.answers (qs.map Prod.snd)).map seen := by
  induction qs generalizing c c' with
  | nil => rfl
  | cons p qs ih =>
      obtain ⟨fate, q⟩ := p
      obtain ⟨hanswer, hafter⟩ := answerAs_quiet h fate c'.executor.fate q
      rw [← answer_eq] at hanswer hafter
      rw [answersAs, List.map_cons, List.map_cons, answers, List.map_cons, ih hafter,
        seen_congr hanswer hafter]

/-! ### Registrations that nobody waits for -/

/-- The task that publishes a declaration. -/
def registration (decl : Declaration) (c : Catalogue) :
    Worker.Effect Catalogue (Except CatalogueError Registration) :=
  ⟨.value (c.publish decl).1, (c.publish decl).2, false⟩

/-- The catalogue after declarations were published one after another. -/
def publishAll (c : Catalogue) (decls : List Declaration) : Catalogue :=
  decls.foldl (fun c decl => (c.publish decl).2) c

theorem replay_registration (c : Catalogue) (decls : List Declaration) :
    Worker.replay registration decls c =
      ((c.publications decls).map fun p => .value p.2, c.publishAll decls) := by
  induction decls generalizing c with
  | nil => rfl
  | cons decl decls ih =>
      rw [Worker.replay, registration, ih]
      rfl

/-- A thread that has run what it accepted has published it in that order. -/
theorem confined_registrations (c : Catalogue) (actions : List (Worker.Action Declaration)) :
    let decls := Worker.Action.submittedOpen actions
    let S := (Worker.Confinement.start c).performAll registration
      (actions ++ List.replicate decls.length .work)
    S.history = decls ∧
      S.tickets.map (·.poll.1) = (c.publications decls).map (fun p => .value p.2) ∧
      S.shared = c.publishAll decls := by
  intro decls S
  let S₁ := (Worker.Confinement.start c).performAll registration actions
  have hS : S = S₁.performAll registration (List.replicate decls.length .work) :=
    List.foldl_append
  have hkept : Worker.Confinement.Kept registration c S₁ :=
    Worker.Confinement.Kept.start.performAll actions
  have hhistory : S₁.history = decls :=
    Worker.Confinement.history_performAll (fun _ _ => rfl) rfl actions
  have hwaiting : S₁.thread.waiting.length ≤ decls.length := by
    rw [← hhistory, hkept.history_eq, List.length_append, List.length_map]
    omega
  have hran : S.ran = decls := by
    rw [hS, hkept.ran_performAll_work hwaiting, hhistory]
  have hsame : S.history = decls := by
    rw [hS, Worker.Confinement.history_performAll_work, hhistory]
  have hafter : Worker.Confinement.Kept registration c S :=
    Worker.Confinement.Kept.start.performAll _
  have hreplay := hafter.replayed
  rw [hran, replay_registration] at hreplay
  refine ⟨hsame, ?_, (congrArg Prod.snd hreplay).symm⟩
  rw [hafter.tickets_of_ran (hran.trans hsame.symm), hsame, replay_registration, List.map_map,
    List.map_map]
  rfl

/-- **No executor makes a difference.** A call hands at most one task to the executor. Whatever
becomes of each of them, the answers, the names drawn, the published snapshot and the bound classes
after every call are the same as without an executor, and so they are with the executor that the
catalogue has. Declarations that are handed to an open thread, in any order of the submissions with
the steps of the thread, come to the outcomes and to the catalogue that publishing them one after
another comes to. -/
theorem executor_transparent :
    (∀ (c : Catalogue) (qs : List (Fate × Request)), (c.answersAs qs).map seen =
      ({ c with executor := .none }.answers (qs.map Prod.snd)).map seen) ∧
    (∀ (c : Catalogue) (qs : List Request), (c.answers qs).map seen =
      ({ c with executor := .none }.answers qs).map seen) ∧
    ∀ (c : Catalogue) (actions : List (Worker.Action Declaration)),
      let decls := Worker.Action.submittedOpen actions
      let S := (Worker.Confinement.start c).performAll registration
        (actions ++ List.replicate decls.length .work)
      S.history = decls ∧
        S.tickets.map (·.poll.1) = (c.publications decls).map (fun p => .value p.2) ∧
        S.shared = c.publishAll decls := by
  have hquiet : ∀ c : Catalogue, c.quiet = ({ c with executor := .none } : Catalogue).quiet :=
    fun _ => rfl
  refine ⟨fun c qs => answersAs_quiet (hquiet c) qs, fun c qs => ?_, confined_registrations⟩
  -- Both are what the calls come to if every task runs at once.
  have hqs : (qs.map fun q => (Fate.inline, q)).map Prod.snd = qs := by
    rw [List.map_map]
    exact List.map_id qs
  have hnone := answersAs_quiet (hquiet c) (qs.map fun q => (Fate.inline, q))
  have hown := answersAs_quiet (c := c) rfl (qs.map fun q => (Fate.inline, q))
  rw [hqs] at hnone hown
  exact hown.symm.trans hnone

end Catalogue

end WireCatalog
