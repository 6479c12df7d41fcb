import Stencil.Proofs.Upkeep

/-! Which paths a render notes as found and which as missing. Outside of loops a path is judged once and for all, for
it stands for the same all through the render. In a template that a loop includes, a path that leads into the
variables of the loop is judged anew at every turn. -/
namespace Stencil

namespace Instruction

mutual

/- The templates that an instruction includes, each with the names that the loops around it bind. -/
def inclusionsUnder (bound : List String) (i : Instruction) : List (List String × String) :=
  match i with
  | .text _ | .emit _ _ _ _ | .foreign _ => []
  | .branch _ _ thenPart otherwise => inclusionsUnderOf bound thenPart ++ inclusionsUnderOf bound otherwise
  | .iterate _ name _ body => inclusionsUnderOf (loopNames name ++ bound) body
  | .inclusion _ name => [(bound, name)]
termination_by structural i

def inclusionsUnderOf (bound : List String) (is : List Instruction) : List (List String × String) :=
  match is with
  | [] => []
  | i :: is => inclusionsUnder bound i ++ inclusionsUnderOf bound is
termination_by structural is

end
end Instruction

namespace Engine

/- What may be loaded for a text: what the cache holds for it, or what is built of it. The cache tells texts apart by
their digests. -/
def Loads (e : Engine) (cache : Cache Template) (text : String) (t : Template) : Prop :=
  (∃ other p, Digest.sha1 other = Digest.sha1 text ∧ e.build other = .ok p ∧ p.template = t) ∨
    ∃ entry ∈ cache.entries, entry.key = Digest.sha1 text ∧ entry.item = t

/- An entry that was there or was made since then. -/
def Explained (e : Engine) (cache : Cache Template) (entry : CacheEntry Template) : Prop :=
  entry ∈ cache.entries ∨ ∃ text p, e.build text = .ok p ∧ entry = ⟨Digest.sha1 text, e.registry.revision, p.template⟩

variable {e : Engine} {cache now : Cache Template}

theorem processExplained (text : String) (explained : ∀ entry ∈ now.entries, e.Explained cache entry) :
    (∀ entry ∈ (e.process text true now).2.entries, e.Explained cache entry) ∧
      ∀ p, (e.process text true now).1 = .ok p → e.Loads cache text p.template := by
  obtain ⟨adds, result⟩ := e.processEnds text now
  constructor
  · intro entry member
    rcases adds entry member with old | ⟨p, built, rfl⟩
    · exact explained entry old
    · exact .inr ⟨text, p, built, rfl⟩
  · intro p ok
    rcases result with fresh | ⟨entry, inside, key, -, hit⟩
    · exact .inl ⟨text, p, rfl, fresh.symm.trans ok, rfl⟩
    · cases hit.symm.trans ok
      rcases explained entry inside with held | ⟨other, q, built, rfl⟩
      · exact .inr ⟨entry, held, key, rfl⟩
      · exact .inl ⟨other, q, key, built, rfl⟩

end Engine

/- The templates that a render may come to, each with the names that the loops around it bind. -/
inductive Opens (e : Engine) (cache : Cache Template) (first : Template → Prop) : List String → Template → Prop where
  | first {t} (here : first t) : Opens e cache first [] t
  | included {bound inner t name text u} (outer : Opens e cache first bound t)
      (member : (inner, name) ∈ Instruction.inclusionsUnderOf bound t.procedure.instructions)
      (found : e.source name = .ok text) (loads : e.Loads cache text u) : Opens e cache first inner u

/- The first part of the path is one of these names. -/
def Path.Under (bound : List String) (path : String) : Prop := ∃ root rest, segments path = root :: rest ∧ root ∈ bound

/- A dependency of a template under loops, one of which binds its first part. -/
def Looped (opens : List String → Template → Prop) (path : String) : Prop :=
  ∃ bound t, opens bound t ∧ path ∈ t.dependencies ∧ Path.Under bound path

/- What a path stands for outside of loops. -/
def standing (host : Host) (vars : Value) (options : RenderOptions) (path : String) : Except ValueFault Value :=
  if Path.segments path = [] then .ok .missing else outerValue host vars options path

namespace Run

/- A handler that fails ends the render or leaves the value as it is. -/
theorem handleEnds (host : Host) (options : RenderOptions) (path : String) (v : Value) (s : RunState) :
    ∃ calls, handle host options path v s =
        .ok (handledValue host options.handlers path v) { s with world := { s.world with calls := calls } } ∨
      ∃ f, handle host options path v s = .error f { s with world := { s.world with calls := calls } } := by
  cases strict : options.strict.isOn with
  | false =>
    obtain ⟨calls, ends⟩ := handleLenient strict host path v s
    exact ⟨calls, .inl ends⟩
  | true =>
    simp only [handle, handledValue, callHandler, bind, EStateM.bind, strict, if_true]
    cases under : Path.under options.handlers path with
    | error fault => exact ⟨s.world.calls, .inr ⟨_, rfl⟩⟩
    | ok handler =>
      cases handler with
      | callable c =>
        refine ⟨(c, [v]) :: s.world.calls, ?_⟩
        simp only [call, modifyGet, MonadStateOf.modifyGet, EStateM.modifyGet, World.call]
        cases host.apply c [v] with
        | ok w => exact .inl rfl
        | error fault => exact .inr ⟨_, rfl⟩
      | null | missing | str | bool | int | float | date | moment | time | set | list | tuple | map =>
        exact ⟨s.world.calls, .inr ⟨_, rfl⟩⟩

/- What a lookup gives is what the path stands for, and it goes on to stand for it. -/
theorem lookupFaithful {host : Host} {s : RunState} (faithful : s.frame.Faithful host) (path : String) :
    ∃ calls,
      (∃ v more, lookup host path s = .ok v ⟨{ s.frame with handled := s.frame.handled ++ more },
          { s.world with calls := calls }⟩ ∧ outerValue host s.frame.vars s.frame.options path = .ok v ∧
        Frame.Faithful host { s.frame with handled := s.frame.handled ++ more }) ∨
      ∃ f, lookup host path s = .error f { s with world := { s.world with calls := calls } } := by
  have unchanged : s =
      ⟨{ s.frame with handled := s.frame.handled ++ [] }, { s.world with calls := s.world.calls }⟩ := by
    simp
  have kept : Frame.Faithful host { s.frame with handled := s.frame.handled ++ [] } := by simpa using faithful
  rw [lookupEnds]
  cases raw : rawValue s.frame.vars s.frame.options.defaults path with
  | error f => exact ⟨_, .inr ⟨_, rfl⟩⟩
  | ok u =>
    dsimp only
    cases absent : u.isMissing with
    | true => exact ⟨_, .inl ⟨u, [], congrArg (EStateM.Result.ok u) unchanged, outerPlain raw (.inl absent), kept⟩⟩
    | false =>
      rw [if_neg Bool.false_ne_true]
      cases held : Path.holds s.frame.options.handlers path with
      | error f => exact ⟨_, .inr ⟨_, rfl⟩⟩
      | ok has =>
        cases has with
        | false => exact ⟨_, .inl ⟨u, [], congrArg (EStateM.Result.ok u) unchanged, outerPlain raw (.inr held), kept⟩⟩
        | true =>
          have right : outerValue host s.frame.vars s.frame.options path = _ := outerHandled raw absent held
          cases made : s.frame.handled.lookup path with
          | some w =>
            exact ⟨_, .inl ⟨w, [], congrArg (EStateM.Result.ok w) unchanged, faithful path w made, kept⟩⟩
          | none =>
            obtain ⟨calls, ends | ⟨f, ends⟩⟩ := handleEnds host s.frame.options path u s
            · refine ⟨calls, .inl ⟨_, [(path, _)], ?_, right, faithfulAdds faithful right⟩⟩
              simp only [bind, EStateM.bind, ends]
              rfl
            · refine ⟨calls, .inr ⟨f, ?_⟩⟩
              simp only [bind, EStateM.bind, ends]

end Run

/- A path that was noted with such a value, or one that loops may have judged. -/
def Judges (e : Engine) (vars : Value) (options : RenderOptions) (looped : String → Prop) (missing : Bool)
    (path : String) : Prop :=
  looped path ∨ ∃ v, standing e.host vars options path = .ok v ∧ v.isMissing = missing

/- A render, beside itself, in which every path was noted rightly so far. -/
structure Judged (e : Engine) (cache : Cache Template) (vars : Value) (options : RenderOptions)
    (looped : String → Prop) (scopes : List Scope) (s s' : RunState) : Prop where
  same : s' = s
  scopes : s.frame.scopes = scopes
  given : s.frame.vars = vars
  chosen : s.frame.options = options
  faithful : s.frame.Faithful e.host
  explained : ∀ entry ∈ s.world.cache.entries, e.Explained cache entry
  usedOnce : s.frame.used.Nodup
  missingOnce : s.frame.missing.Nodup
  used : ∀ path ∈ s.frame.used, Judges e vars options looped false path
  missing : ∀ path ∈ s.frame.missing, Judges e vars options looped true path

/- Only names of these loops are bound in the scopes. -/
def Within (scopes : List Scope) (bound : List String) : Prop :=
  ∀ name v, scopes.findSome? (·.lookup name) = some v → name ∈ bound

theorem loopScopeOnly {name word : String} {index last : Nat} {item v : Value}
    (found : (Run.loopScope name index last item).lookup word = some v) : word ∈ loopNames name := by
  have bound : ((Run.loopScope name index last item).lookup word).isSome := by simp [found]
  simpa [List.lookup_isSome_iff, Run.loopScope, loopNames, or_comm, or_left_comm] using bound

theorem withinTurn {scopes : List Scope} {bound : List String} (within : Within scopes bound) (name : String)
    (index last : Nat) (item : Value) :
    Within (Run.loopScope name index last item :: scopes) (loopNames name ++ bound) := by
  intro word v found
  rw [List.findSome?_cons] at found
  cases here : (Run.loopScope name index last item).lookup word with
  | some w => exact List.mem_append_left _ (loopScopeOnly here)
  | none =>
    rw [here] at found
    exact List.mem_append_right _ (within word v found)

theorem appendedOnce {path : String} {paths : List String} (once : paths.Nodup) : (appendNew path paths).Nodup := by
  rw [appendNew]
  split
  · exact once
  · rename_i fresh
    have fresh : path ∉ paths := by simpa using fresh
    exact List.nodup_append.mpr ⟨once, List.nodup_singleton path, by
      rintro a member b here rfl
      exact fresh (List.mem_singleton.mp here ▸ member)⟩

theorem appendedAll {holds : String → Prop} {path : String} {paths : List String} (first : holds path)
    (others : ∀ other ∈ paths, holds other) : ∀ other ∈ appendNew path paths, holds other := by
  intro other member
  rcases mem_appendNew.mp member with rfl | old
  · exact first
  · exact others other old

namespace Judged

variable {e : Engine} {cache : Cache Template} {vars : Value} {options : RenderOptions} {looped : String → Prop}
  {scopes : List Scope}

theorem callCoupled (scopes : List Scope) (c : Callable) (args : List Value) :
    Coupled (Judged e cache vars options looped scopes) (Run.call e.host c args) (Run.call e.host c args) := by
  rintro s s' ⟨rfl, shut, given, chosen, faithful, explained, once, once', used, missing⟩
  exact .ok _ ⟨rfl, shut, given, chosen, faithful, explained, once, once', used, missing⟩

theorem lookupCoupled (scopes : List Scope) (path : String) :
    Coupled (Judged e cache vars options looped scopes) (Run.lookup e.host path) (Run.lookup e.host path) := by
  rintro s s' ⟨rfl, shut, given, chosen, faithful, explained, once, once', used, missing⟩
  obtain ⟨calls, ⟨v, more, found, -, faithful'⟩ | ⟨f, failed⟩⟩ := Run.lookupFaithful faithful path
  · rw [found]
    exact .ok v ⟨rfl, shut, given, chosen, faithful', explained, once, once', used, missing⟩
  · rw [failed]
    exact .error f ⟨rfl, shut, given, chosen, faithful, explained, once, once', used, missing⟩

theorem reading : Reading e.host (fun _ => True) (Judged e cache vars options looped) where
  scopes := by
    rintro scopes s s' ⟨rfl, shut, _⟩
    exact ⟨shut, shut⟩
  entering := by
    rintro scopes s s' scope ⟨rfl, shut, given, chosen, faithful, explained, once, once', used, missing⟩
    exact ⟨rfl, congrArg (scope :: ·) shut, given, chosen, faithful, explained, once, once', used, missing⟩
  leaving := by
    rintro scope scopes s s' ⟨rfl, shut, given, chosen, faithful, explained, once, once', used, missing⟩
    exact ⟨rfl, congrArg List.tail shut, given, chosen, faithful, explained, once, once', used, missing⟩
  writing := by
    rintro scopes s s' text ⟨rfl, shut, given, chosen, faithful, explained, once, once', used, missing⟩
    exact ⟨rfl, shut, given, chosen, faithful, explained, once, once', used, missing⟩
  lookup scopes path _ := lookupCoupled scopes path
  call := callCoupled

theorem deadlineCoupled (scopes : List Scope) :
    Coupled (Judged e cache vars options looped scopes) (Run.checkDeadline e.host) (Run.checkDeadline e.host) := by
  rintro s s' ⟨rfl, shut, given, chosen, faithful, explained, once, once', used, missing⟩
  obtain ⟨reads, passed | ⟨fault, late⟩⟩ := Run.checkDeadlineEnds e.host s'
  · rw [passed]
    exact .ok () ⟨rfl, shut, given, chosen, faithful, explained, once, once', used, missing⟩
  · rw [late]
    exact .error fault ⟨rfl, shut, given, chosen, faithful, explained, once, once', used, missing⟩

/- What is found for a path that no scope binds is what it stands for. -/
theorem resolveJudges {bound : List String} (within : Within scopes bound) {path : String} {s s' t : RunState}
    {v : Value}
    (judged : Judged e cache vars options looped scopes s s') (ok : Run.resolve e.host path s = .ok v t) :
    Path.Under bound path ∨ standing e.host vars options path = .ok v := by
  obtain ⟨rfl, rfl, rfl, rfl, faithful, -⟩ := judged
  rw [Run.resolveEnds] at ok
  rw [standing]
  cases parts : Path.segments path with
  | nil =>
    simp only [parts] at ok
    cases ok
    exact .inr rfl
  | cons root rest =>
    simp only [parts] at ok
    cases bound : s'.frame.bound? root with
    | some w => exact .inl ⟨root, rest, parts, within root w bound⟩
    | none =>
      simp only [bound] at ok
      obtain ⟨calls, ⟨w, more, found, stands, -⟩ | ⟨f, failed⟩⟩ := Run.lookupFaithful faithful path
      · cases found.symm.trans ok
        exact .inr stands
      · cases failed.symm.trans ok

/- Each dependency is noted rightly, provided that one which the loops bind counts as judged by them. -/
theorem requireCoupled {bound : List String} (within : Within scopes bound) {paths : List String}
    (loops : ∀ path ∈ paths, Path.Under bound path → looped path) :
    Coupled (Judged e cache vars options looped scopes) (Run.require e.host paths) (Run.require e.host paths) := by
  induction paths with
  | nil => exact .ofPure ()
  | cons path paths ih =>
    have rest := ih fun other member => loops other (List.mem_cons_of_mem _ member)
    refine .bindOf (fun v => Judges e vars options looped v.isMissing path) (reading.resolves path) ?_ fun v right => ?_
    · intro s s' v t judged ok
      exact (resolveJudges within judged ok).imp (loops path (by simp)) fun stands => ⟨v, stands, rfl⟩
    · cases absent : v.isMissing with
      | true =>
        rw [absent] at right
        refine .bind (modifyCoupled ?_) fun _ => asksCoupled fun s s' judged => ?_
        · rintro s s' ⟨rfl, shut, given, chosen, faithful, explained, once, once', used, missing⟩
          exact ⟨rfl, shut, given, chosen, faithful, explained, once, appendedOnce once', used,
            appendedAll right missing⟩
        · have same := judged.same
          subst same
          dsimp only
          split
          · exact .error _ judged
          · exact rest _ _ judged
      | false =>
        rw [absent] at right
        refine .bind (modifyCoupled ?_) fun _ => rest
        rintro s s' ⟨rfl, shut, given, chosen, faithful, explained, once, once', used, missing⟩
        exact ⟨rfl, shut, given, chosen, faithful, explained, appendedOnce once, once', appendedAll right used, missing⟩

theorem turnsCoupled {body : Run Unit} (name : String) (last index : Nat) (items : List Value)
    (inner : ∀ index item, Coupled (Judged e cache vars options looped (Run.loopScope name index last item :: scopes))
      body body) :
    Coupled (Judged e cache vars options looped scopes) (Run.eachItem e.host name body last index items)
      (Run.eachItem e.host name body last index items) := by
  induction items generalizing index with
  | nil => exact .ofPure ()
  | cons item items ih =>
    refine .bind (deadlineCoupled scopes) fun _ => .bind ?_ fun _ => ih (index + 1)
    exact Run.withinCoupled (fun s t => reading.entering _) (fun s t => reading.opened) (inner index item)

mutual

/- An include is run under the loops that stand around it. -/
theorem execCoupled {includer : Includer} {scopes : List Scope} {bound : List String}
    (functions : List (String × Callable)) (i : Instruction) (within : Within scopes bound)
    (included : ∀ run, includer = some run → ∀ inner name, (inner, name) ∈ i.inclusionsUnder bound →
      ∀ scopes, Within scopes inner → Coupled (Judged e cache vars options looped scopes) (run name) (run name)) :
    Coupled (Judged e cache vars options looped scopes) (Run.exec e.host includer functions i)
      (Run.exec e.host includer functions i) := by
  cases i with
  | text s =>
    simp only [Run.exec]
    exact reading.writeCoupled s
  | emit p source e' filters =>
    simp only [Run.exec]
    refine .bind (reading.evaluates functions p e') fun v => ?_
    refine .bind (reading.filtersCoupled p filters v.plain) fun w => ?_
    exact .bind (Run.liftCoupled _) reading.writeCoupled
  | branch p e' thenPart otherwise =>
    simp only [Run.exec]
    refine .bind (reading.evaluates functions p e') fun v => ?_
    split
    · exact execAllCoupled functions thenPart within fun run here inner name member =>
        included run here inner name (List.mem_append_left _ member)
    · exact execAllCoupled functions otherwise within fun run here inner name member =>
        included run here inner name (List.mem_append_right _ member)
  | iterate p name e' body =>
    simp only [Run.exec]
    refine .bind (reading.evaluates functions p e') fun v => turnsCoupled name _ 0 _ fun index item => ?_
    exact execAllCoupled functions body (withinTurn within name index _ item) included
  | inclusion p name =>
    simp only [Run.exec]
    cases present : includer with
    | none => exact .ofThrow _
    | some run => exact included run present bound name (List.mem_singleton.mpr rfl) scopes within
  | foreign kind => exact .ofThrow _

theorem execAllCoupled {includer : Includer} {scopes : List Scope} {bound : List String}
    (functions : List (String × Callable)) (is : List Instruction) (within : Within scopes bound)
    (included : ∀ run, includer = some run → ∀ inner name, (inner, name) ∈ Instruction.inclusionsUnderOf bound is →
      ∀ scopes, Within scopes inner → Coupled (Judged e cache vars options looped scopes) (run name) (run name)) :
    Coupled (Judged e cache vars options looped scopes) (Run.execAll e.host includer functions is)
      (Run.execAll e.host includer functions is) := by
  cases is with
  | nil => exact .ofPure ()
  | cons i is =>
    simp only [Run.execAll]
    refine .bind (deadlineCoupled scopes) fun _ => .bind ?_ fun _ => ?_
    · exact execCoupled functions i within fun run here inner name member =>
        included run here inner name (List.mem_append_left _ member)
    · exact execAllCoupled functions is within fun run here inner name member =>
        included run here inner name (List.mem_append_right _ member)

end

theorem loadCoupled (scopes : List Scope) (text : String) :
    Coupled (Judged e cache vars options looped scopes) (e.load text) (e.load text) := by
  rintro s s' ⟨rfl, shut, given, chosen, faithful, explained, once, once', used, missing⟩
  obtain ⟨explained', -⟩ := Engine.processExplained text explained
  rw [Engine.loadEnds]
  cases (e.process text true s'.world.cache).1 with
  | ok p => exact .ok _ ⟨rfl, shut, given, chosen, faithful, explained', once, once', used, missing⟩
  | error fault => exact .error _ ⟨rfl, shut, given, chosen, faithful, explained', once, once', used, missing⟩

theorem loadGives {text : String} {t : Template} {s s' after : RunState}
    (judged : Judged e cache vars options looped scopes s s') (ok : e.load text s = .ok t after) :
    e.Loads cache text t := by
  obtain ⟨-, loads⟩ := Engine.processExplained text judged.explained
  rw [Engine.loadEnds] at ok
  cases processed : (e.process text true s.world.cache).1 with
  | ok p =>
    simp only [processed] at ok
    cases ok
    exact loads p processed
  | error fault => simp [processed] at ok

variable {first : Template → Prop}

theorem executeCoupled {includer : Includer} {bound : List String} {t : Template}
    (opens : Opens e cache first bound t) (within : Within scopes bound)
    (included : ∀ run, includer = some run → ∀ inner name,
      (inner, name) ∈ Instruction.inclusionsUnderOf bound t.procedure.instructions → ∀ scopes, Within scopes inner →
        Coupled (Judged e cache vars options (Looped (Opens e cache first)) scopes) (run name) (run name)) :
    Coupled (Judged e cache vars options (Looped (Opens e cache first)) scopes) (Run.execute e.host includer t)
      (Run.execute e.host includer t) :=
  .bind (requireCoupled within fun _ member under => ⟨bound, t, opens, member, under⟩) fun _ =>
    execAllCoupled t.procedure.functions t.procedure.instructions within included

theorem inclusionCoupled (remaining : Nat) {bound inner : List String} {t : Template} {name : String}
    (opens : Opens e cache first bound t)
    (member : (inner, name) ∈ Instruction.inclusionsUnderOf bound t.procedure.instructions)
    (scopes : List Scope) (within : Within scopes inner) :
    Coupled (Judged e cache vars options (Looped (Opens e cache first)) scopes) (e.inclusion remaining name)
      (e.inclusion remaining name) := by
  -- The template and the loops around it change on the way down.
  induction remaining generalizing bound inner t name scopes with
  | zero => exact .ofThrow _
  | succ remaining ih =>
    simp only [Engine.inclusion]
    cases found : e.source name with
    | error fault => exact .ofThrow _
    | ok text =>
      refine .bindOf (e.Loads cache text) (loadCoupled scopes text)
        (fun s s' u after judged ok => loadGives judged ok) ?_
      intro u loads
      have deeper : Opens e cache first inner u := .included opens member found loads
      refine executeCoupled deeper within ?_
      intro run same inner' word member' scopes' within'
      cases same
      exact ih deeper member' scopes' within'

end Judged

/- What is told of the paths of a render: none is told twice, and one that is both found and missing is a dependency of
a template under a loop that binds its first part. -/
structure Told (opens : List String → Template → Prop) (r : RenderResult) : Prop where
  usedOnce : r.used.Nodup
  missingOnce : r.missing.Nodup
  common : ∀ path ∈ r.used, path ∈ r.missing → Looped opens path

namespace Judged

theorem told {e : Engine} {cache : Cache Template} {vars : Value} {options : RenderOptions}
    {opens : List String → Template → Prop} {s s' : RunState}
    (judged : Judged e cache vars options (Looped opens) [] s s') {r : RenderResult} (used : r.used = s.frame.used)
    (missing : r.missing = s.frame.missing) : Told opens r := by
  refine ⟨used ▸ judged.usedOnce, missing ▸ judged.missingOnce, fun path found lacked => ?_⟩
  rw [used] at found
  rw [missing] at lacked
  rcases judged.used path found with looped | ⟨v, stands, present⟩
  · exact looped
  · rcases judged.missing path lacked with looped | ⟨w, stands', absent⟩
    · exact looped
    · -- Outside of loops the path stands for one value, which is either there or not.
      cases stands.symm.trans stands'
      rw [present] at absent
      cases absent

end Judged

theorem Frame.startEmpty {vars : Value} {options : RenderOptions} {now : Binary64} {f : Frame}
    (begun : start vars options now = .ok f) :
    ∃ deadline, f = ⟨givenVars vars, options, "", [], [], [], [], now, deadline⟩ := by
  rw [start] at begun
  split at begun
  · obtain ⟨deadline, -, begun⟩ := boundOk begun
    cases begun
    exact ⟨deadline, rfl⟩
  · cases begun
    exact ⟨none, rfl⟩

theorem Template.told {e : Engine} {cache : Cache Template} {first : Template → Prop} {t : Template} (here : first t)
    {includer : Includer} (hook : includer = none ∨ includer = e.includer) {vars : Value} {options : RenderOptions}
    {w : World} (explained : ∀ entry ∈ w.cache.entries, e.Explained cache entry) {r : RenderResult}
    (ended : (t.render e.host includer vars options w).1 = .ok r) : Told (Opens e cache first) r := by
  cases begun : Frame.start vars options (w.tick e.host).1 with
  | error f =>
    simp only [render, begin, begun, Except.map] at ended
    cases ended
  | ok f =>
    rw [renderEnds begun] at ended
    obtain ⟨deadline, rfl⟩ := Frame.startEmpty begun
    have judged : Judged e cache (givenVars vars) options (Looped (Opens e cache first)) []
        ⟨⟨givenVars vars, options, "", [], [], [], [], (w.tick e.host).1, deadline⟩, (w.tick e.host).2⟩
        ⟨⟨givenVars vars, options, "", [], [], [], [], (w.tick e.host).1, deadline⟩, (w.tick e.host).2⟩ :=
      ⟨rfl, rfl, rfl, rfl, by simp [Frame.Faithful], explained, List.nodup_nil, List.nodup_nil, by simp, by simp⟩
    have outermost : Within [] [] := by simp [Within]
    have executes : Coupled (Judged e cache (givenVars vars) options (Looped (Opens e cache first)) [])
        (Run.execute e.host includer t) (Run.execute e.host includer t) := by
      refine Judged.executeCoupled (.first here) outermost fun run same inner name member scopes within => ?_
      rcases hook with rfl | rfl
      · cases same
      · cases same
        exact Judged.inclusionCoupled _ (.first here) member scopes within
    have ends := Coupled.bind executes (fun _ => Judged.deadlineCoupled []) _ _ judged
    generalize (Run.execute e.host includer t >>= fun _ => Run.checkDeadline e.host) _ = x at ended ends
    cases ends with
    | ok a after =>
      cases ended
      exact after.told rfl rfl
    | error f after =>
      cases f with
      | template fault =>
        cases ended
        exact after.told rfl rfl
      | value fault => cases ended

/- No path is told twice. A path is told both as found and as missing only if a template depends on it that is included
inside a loop, directly or through others, and the loop binds the first part of the path, so that it is judged at
every turn. Of a text, or of a template that was compiled before; with any loader and any cache, and whether the
render fails or not. -/
theorem toldApart (e : Engine) (vars : Value) (options : RenderOptions) (w : World) :
    (∀ text r, (e.render text vars options w).1 = .ok r → Told (Opens e w.cache (e.Loads w.cache text)) r) ∧
      ∀ t includer r, includer = none ∨ includer = e.includer →
        (t.render e.host includer vars options w).1 = .ok r → Told (Opens e w.cache (· = t)) r := by
  constructor
  · intro text r ended
    obtain ⟨explained, loads⟩ := e.processExplained text fun entry (member : entry ∈ w.cache.entries) => .inl member
    rw [Engine.render] at ended
    split at ended
    · cases ended
      exact ⟨List.nodup_nil, List.nodup_nil, by simp [RenderResult.notStarted]⟩
    · rename_i p cache processed
      rw [processed] at explained loads
      exact Template.told (loads p rfl) (.inr rfl) explained ended
  · intro t includer r hook ended
    refine Template.told ?_ hook (fun entry member => .inl member) ended
    rfl

/- A template that a loop includes for each of two rows, the second of which lacks what it shows. -/
def sampleCells : Engine := ⟨.standard, .empty, some fun _ => .ok (some "$\x7bx.y\x7d"), .still⟩

def sampleCell : Template := ⟨Digest.sha1 "$\x7bx.y\x7d", .root .start [.output ⟨1, 1, 0⟩ "x.y"],
  ⟨[.emit ⟨1, 1, 0⟩ "x.y" (.path "x.y") []], [], 0⟩, ["x.y"]⟩

def sampleTable : String := "$\x7b#each x in xs\x7d$\x7binclude cell\x7d$\x7b/each\x7d"

def sampleTableTemplate : Template :=
  ⟨Digest.sha1 sampleTable, .root .start [.loop ⟨1, 1, 0⟩ "x" "xs" [.inclusion ⟨1, 17, 16⟩ "cell"]],
    ⟨[.iterate ⟨1, 1, 0⟩ "x" (.path "xs") [.inclusion ⟨1, 17, 16⟩ "cell"]], [], 0⟩, ["xs"]⟩

def sampleGap : Value := .map [(.str "xs", .list [.map [(.str "y", .str "a")], .map []])]

/- Nothing is kept. -/
def World.forgetful : World := ⟨0, [], .empty false 0⟩

set_option maxRecDepth 4000 in
theorem sampleCellBuilt : ∃ p, sampleCells.build "$\x7bx.y\x7d" = .ok p ∧ p.template = sampleCell := by
  have tokens : Token.scan .standard "$\x7bx.y\x7d" =
      .ok [⟨.output, "x.y", ⟨1, 1, 0⟩, 6⟩, ⟨.eof, "", ⟨1, 7, 6⟩, 6⟩] := by cbv
  have read : Node.ofTokens .standard [⟨.output, "x.y", ⟨1, 1, 0⟩, 6⟩, ⟨.eof, "", ⟨1, 7, 6⟩, 6⟩] =
      .ok (.root .start [.output ⟨1, 1, 0⟩ "x.y"]) := by cbv
  have item : Output.parse "x.y" = .ok ⟨"x.y", .path "x.y", []⟩ := by cbv
  have compiled : Procedure.compile .empty (.root .start [.output ⟨1, 1, 0⟩ "x.y"]) =
      .ok ⟨⟨[.emit ⟨1, 1, 0⟩ "x.y" (.path "x.y") []], [], 0⟩, ["x.y"]⟩ := by
    simp only [Procedure.compile, Procedure.compileNodes, Procedure.compileNode, item]
    rfl
  exact ⟨_, Engine.buildOk.mpr ⟨_, _, _, tokens, read, compiled, rfl⟩, rfl⟩

set_option maxRecDepth 4000 in
theorem sampleTableBuilt : ∃ p, sampleCells.build sampleTable = .ok p ∧ p.template = sampleTableTemplate := by
  have tokens : Token.scan .standard sampleTable = .ok [⟨.loopStart, "x in xs", ⟨1, 1, 0⟩, 16⟩,
      ⟨.inclusion, "cell", ⟨1, 17, 16⟩, 31⟩, ⟨.loopEnd, "", ⟨1, 32, 31⟩, 39⟩, ⟨.eof, "", ⟨1, 40, 39⟩, 39⟩] := by cbv
  have read : Node.ofTokens .standard [⟨.loopStart, "x in xs", ⟨1, 1, 0⟩, 16⟩,
      ⟨.inclusion, "cell", ⟨1, 17, 16⟩, 31⟩, ⟨.loopEnd, "", ⟨1, 32, 31⟩, 39⟩, ⟨.eof, "", ⟨1, 40, 39⟩, 39⟩] =
      .ok (.root .start [.loop ⟨1, 1, 0⟩ "x" "xs" [.inclusion ⟨1, 17, 16⟩ "cell"]]) := by cbv
  have list : Expr.parse "xs" = .ok (.path "xs") := by cbv
  have compiled : Procedure.compile .empty
      (.root .start [.loop ⟨1, 1, 0⟩ "x" "xs" [.inclusion ⟨1, 17, 16⟩ "cell"]]) =
      .ok ⟨⟨[.iterate ⟨1, 1, 0⟩ "x" (.path "xs") [.inclusion ⟨1, 17, 16⟩ "cell"]], [], 0⟩, ["xs"]⟩ := by
    simp only [Procedure.compile, Procedure.compileNodes, Procedure.compileNode, Procedure.compileExpr, list]
    rfl
  exact ⟨_, Engine.buildOk.mpr ⟨_, _, _, tokens, read, compiled, rfl⟩, rfl⟩

theorem sampleCellIncluded (remaining : Nat) {s : RunState} (off : s.world.cache.enabled = false) :
    sampleCells.inclusion (remaining + 1) "cell" s =
      Run.execute .still (some (sampleCells.inclusion remaining)) sampleCell s := by
  obtain ⟨p, built, template⟩ := sampleCellBuilt
  have loaded : sampleCells.load "$\x7bx.y\x7d" s = .ok sampleCell s := by
    rw [Engine.loadEnds, Engine.processOff off built, ← template]
  have found : sampleCells.source "cell" = .ok "$\x7bx.y\x7d" := rfl
  simp only [Engine.inclusion, found, bind, EStateM.bind, loaded]
  rfl

/- A turn of the loop runs the included template. -/
theorem sampleTurn (remaining : Nat) (scope : Scope) {s : RunState} (off : s.world.cache.enabled = false)
    (unlimited : s.frame.deadline = none) :
    Run.within scope (Run.execAll .still (some (sampleCells.inclusion (remaining + 1))) []
        [.inclusion ⟨1, 17, 16⟩ "cell"]) s =
      Run.within scope (Run.execute .still (some (sampleCells.inclusion remaining)) sampleCell) s := by
  have limit : (s.entering scope).frame.deadline = none := unlimited
  have entered := sampleCellIncluded remaining (s := s.entering scope) off
  have body : Run.execAll .still (some (sampleCells.inclusion (remaining + 1))) []
      [.inclusion ⟨1, 17, 16⟩ "cell"] (s.entering scope) =
        Run.execute .still (some (sampleCells.inclusion remaining)) sampleCell (s.entering scope) := by
    simp only [Run.execAll, Run.exec, bind, EStateM.bind, Run.checkDeadlineUnlimited .still limit]
    simp only [entered]
    cases Run.execute .still (some (sampleCells.inclusion remaining)) sampleCell (s.entering scope) <;> rfl
  have begun (m : Run Unit) : Run.within scope m s = tryFinally m Run.popScope (s.entering scope) := rfl
  simp only [begun, tryFinally, tryFinally', Functor.map, EStateM.map, body]

/- The state of the render between the turns of the loop. -/
def sampleState (output : String) (used missing : List String) : RunState :=
  ⟨⟨givenVars sampleGap, .unlimited, output, [], used, missing, [], .zero, none⟩, ⟨1, [], .empty false 0⟩⟩

theorem sampleTableRuns : Run.execute .still sampleCells.includer sampleTableTemplate (sampleState "" [] []) =
    .ok () (sampleState "a" ["xs", "x.y"] ["x.y"]) := by
  have limit (output : String) (used missing : List String) :
      Run.checkDeadline .still (sampleState output used missing) =
      .ok () (sampleState output used missing) := Run.checkDeadlineUnlimited .still rfl
  have required : Run.require .still ["xs"] (sampleState "" [] []) = .ok () (sampleState "" ["xs"] []) := rfl
  have listed : Run.evaluate .still [] ⟨1, 1, 0⟩ (.path "xs") (sampleState "" ["xs"] []) =
      .ok (.list [.map [(.str "y", .str "a")], .map []]) (sampleState "" ["xs"] []) := rfl
  have first : Run.within (Run.loopScope "x" 0 1 (.map [(.str "y", .str "a")]))
      (Run.execAll .still sampleCells.includer [] [.inclusion ⟨1, 17, 16⟩ "cell"]) (sampleState "" ["xs"] []) =
        .ok () (sampleState "a" ["xs", "x.y"] []) := (sampleTurn 9 _ rfl rfl).trans rfl
  have second : Run.within (Run.loopScope "x" 1 1 (.map []))
      (Run.execAll .still sampleCells.includer [] [.inclusion ⟨1, 17, 16⟩ "cell"]) (sampleState "a" ["xs", "x.y"] []) =
        .ok () (sampleState "a" ["xs", "x.y"] ["x.y"]) := (sampleTurn 9 _ rfl rfl).trans rfl
  have turns : Run.eachItem .still "x" (Run.execAll .still sampleCells.includer [] [.inclusion ⟨1, 17, 16⟩ "cell"]) 1 0
      [.map [(.str "y", .str "a")], .map []] (sampleState "" ["xs"] []) =
        .ok () (sampleState "a" ["xs", "x.y"] ["x.y"]) := by
    simp only [Run.eachItem, bind, EStateM.bind, limit, first, second]
    rfl
  have loop : Run.exec .still sampleCells.includer [] (.iterate ⟨1, 1, 0⟩ "x" (.path "xs")
      [.inclusion ⟨1, 17, 16⟩ "cell"]) (sampleState "" ["xs"] []) =
        .ok () (sampleState "a" ["xs", "x.y"] ["x.y"]) := by
    simp only [Run.exec, bind, EStateM.bind, listed]
    exact turns
  simp only [Run.execute, sampleTableTemplate, Run.execAll, bind, EStateM.bind, limit, required, loop]
  rfl

theorem sampleTableTold : ∃ r, (sampleCells.render sampleTable sampleGap .unlimited .forgetful).1 = .ok r ∧
    r.used = ["xs", "x.y"] ∧ r.missing = ["x.y"] := by
  obtain ⟨p, built, template⟩ := sampleTableBuilt
  rw [Engine.render, Engine.processOff rfl built]
  dsimp only
  rw [Template.renderEnds (Frame.startUnlimited (by decide) _ _), template]
  have limit : Run.checkDeadline .still (sampleState "a" ["xs", "x.y"] ["x.y"]) = .ok () _ :=
    Run.checkDeadlineUnlimited .still rfl
  have whole : (do Run.execute .still sampleCells.includer sampleTableTemplate; Run.checkDeadline .still : Run Unit)
      (sampleState "" [] []) = .ok () (sampleState "a" ["xs", "x.y"] ["x.y"]) := by
    simp only [bind, EStateM.bind, sampleTableRuns, limit]
  exact ⟨_, congrArg (fun x => (Template.concluded .still x).1) whole, rfl, rfl⟩

theorem toldApartTable : ∃ r, (sampleCells.render sampleTable sampleGap .unlimited .forgetful).1 = .ok r ∧
    r.used.Nodup ∧
      Looped (Opens sampleCells World.forgetful.cache (sampleCells.Loads World.forgetful.cache sampleTable))
      "x.y" := by
  obtain ⟨r, ended, used, missing⟩ := sampleTableTold
  have told := (toldApart sampleCells sampleGap .unlimited .forgetful).1 sampleTable r ended
  exact ⟨r, ended, told.usedOnce, told.common "x.y" (by simp [used]) (by simp [missing])⟩

/- The same path is found at the first turn and missing at the second. -/
theorem cellFoundAndMissing : ¬ ∀ (e : Engine) (text : String) (vars : Value) (options : RenderOptions) (w : World) r,
    (e.render text vars options w).1 = .ok r → r.used.Disjoint r.missing := by
  intro always
  obtain ⟨r, ended, used, missing⟩ := sampleTableTold
  have apart := always sampleCells sampleTable sampleGap .unlimited .forgetful r ended
  exact apart (a := "x.y") (by simp [used]) (by simp [missing])

end Stencil
