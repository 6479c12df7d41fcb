import Stencil.Proofs.Judging
import Stencil.Proofs.Watchful

/-! The handlers of variables. In a render, with all that it includes and however often its loops turn, the handler of
a path is called once at most, with what the vars or the defaults have for the path; and outside of the loops that
bind it the path then reads as what came of that call. -/
namespace Stencil

namespace Sight

def handledPath? : Sight → Option String
  | handled path _ _ _ _ => some path
  | _ => none

/- What was called, and with what. -/
def call? : Sight → Option (Callable × List Value)
  | handled _ c given _ _ => some (c, [given])
  | called c args => some (c, args)
  | read _ _ => none

/- The handler of a path is called with what the path stands for in the vars or the defaults, which is not missing,
and where no open loop binds the path. -/
def Told (host : Host) (vars : Value) (options : RenderOptions) : Sight → Prop
  | handled path c given answer scopes =>
    rawValue vars options.defaults path = .ok given ∧ given.isMissing = false ∧
      Path.under options.handlers path = .ok (.callable c) ∧ answer = host.apply c [given] ∧ Free scopes path
  | _ => True

/- What a path reads as: what it stands for, if that is missing or has no handler that can be called, and otherwise
what came of a call of its handler. -/
inductive Reads (vars : Value) (options : RenderOptions) (before : List Sight) (path : String) : Value → Prop where
  | plain {v} (raw : rawValue vars options.defaults path = .ok v)
      (unhandled : v.isMissing = true ∨ ∀ c, Path.under options.handlers path ≠ .ok (.callable c)) :
      Reads vars options before path v
  | handled {c given answer scopes} (called : handled path c given answer scopes ∈ before) :
      Reads vars options before path (kept given answer)

/- If the handler of a path was called before, the path reads as what came of that call. -/
def Follows (vars : Value) (options : RenderOptions) (before : List Sight) : Sight → Prop
  | read path v => Reads vars options before path v ∧
      ∀ c given answer scopes, handled path c given answer scopes ∈ before → v = kept given answer
  | _ => True

theorem Reads.later {vars : Value} {options : RenderOptions} {before : List Sight} {path : String} {v : Value}
    (reads : Reads vars options before path v) (x : Sight) : Reads vars options (x :: before) path v := by
  cases reads with
  | plain raw unhandled => exact .plain raw unhandled
  | handled called => exact .handled (List.mem_cons_of_mem x called)

end Sight

theorem Path.underHeld {handlers : Value} {path : String} {c : Callable}
    (under : Path.under handlers path = .ok (.callable c)) : Path.holds handlers path = .ok true := by
  cases handlers with
  | map entries =>
    rw [Path.under] at under
    rw [Path.holds]
    cases found : Entries.get? entries path with
    | none =>
      rw [found] at under
      cases under
    | some v => rfl
  | _ => cases under

/- What is seen of handlers, the latest first. -/
structure Handling (host : Host) (vars : Value) (options : RenderOptions) (log : List Sight) : Prop where
  once : (log.filterMap Sight.handledPath?).Nodup
  told : ∀ x ∈ log, x.Told host vars options
  follows : ∀ x before, x :: before <:+ log → x.Follows vars options before

namespace Handling

variable {host : Host} {vars : Value} {options : RenderOptions} {log : List Sight}

theorem empty : Handling host vars options [] :=
  ⟨List.nodup_nil, by simp, by simp⟩

theorem sees (handling : Handling host vars options log) {x : Sight} (told : x.Told host vars options)
    (follows : x.Follows vars options log) (first : ∀ path ∈ x.handledPath?, path ∉ log.filterMap Sight.handledPath?) :
    Handling host vars options (x :: log) := by
  refine ⟨?_, List.forall_mem_cons.mpr ⟨told, handling.told⟩, ?_⟩
  · cases named : x.handledPath? with
    | none =>
      rw [List.filterMap_cons_none named]
      exact handling.once
    | some path =>
      rw [List.filterMap_cons_some named]
      exact List.nodup_cons.mpr ⟨first path named, handling.once⟩
  · intro y before suffix
    rcases List.suffix_cons_iff.mp suffix with same | later
    · cases same
      exact follows
    · exact handling.follows y before later

/- A handler was called for what is there and has a handler. -/
theorem present (handling : Handling host vars options log) {path : String} {c : Callable} {given : Value}
    {answer : Except CallFault Value} {scopes : List Scope} (seen : .handled path c given answer scopes ∈ log) :
    rawValue vars options.defaults path = .ok given ∧ given.isMissing = false ∧
      Path.holds options.handlers path = .ok true := by
  obtain ⟨raw, there, under, -⟩ := handling.told _ seen
  exact ⟨raw, there, Path.underHeld under⟩

end Handling

/- What is known of a watched render at its end, and all along it. -/
structure Attends (host : Host) (vars : Value) (options : RenderOptions) (earlier : List (Callable × List Value))
    (scopes : List Scope) (w : Watched) : Prop where
  opened : w.run.frame.scopes = scopes
  given : w.run.frame.vars = vars
  asked : w.run.frame.options = options
  calls : w.run.world.calls = w.log.filterMap Sight.call? ++ earlier
  handling : Handling host vars options w.log

structure Recalls (host : Host) (vars : Value) (options : RenderOptions) (earlier : List (Callable × List Value))
    (scopes : List Scope) (w : Watched) : Prop extends Attends host vars options earlier scopes w where
  held : ∀ path c given answer scopes, .handled path c given answer scopes ∈ w.log →
    w.run.frame.handled.lookup path = some (Sight.kept given answer)
  noted : ∀ path v, w.run.frame.handled.lookup path = some v → Sight.Reads vars options w.log path v

section

variable {host : Host} {vars : Value} {options : RenderOptions} {earlier : List (Callable × List Value)}
  {scopes : List Scope} {w : Watched}

theorem Attends.moves (attends : Attends host vars options earlier scopes w) {s : RunState} (like : w.run.Like s) :
    Attends host vars options earlier s.frame.scopes (w.moved s) :=
  ⟨rfl, like.vars.trans attends.given, like.options.trans attends.asked, like.calls.trans attends.calls,
    attends.handling⟩

namespace Recalls

theorem moves (recalls : Recalls host vars options earlier scopes w) {s : RunState} (like : w.run.Like s) :
    Recalls host vars options earlier s.frame.scopes (w.moved s) := by
  refine ⟨recalls.toAttends.moves like, ?_, ?_⟩
  · intro path c given answer scopes seen
    rw [← recalls.held path c given answer scopes seen]
    exact congrArg _ like.handled
  · intro path v found
    exact recalls.noted path v (like.handled ▸ found)

theorem reads (recalls : Recalls host vars options earlier scopes w) {path : String} {v : Value}
    (reads : Sight.Reads vars options w.log path v)
    (follows : ∀ c given answer scopes, .handled path c given answer scopes ∈ w.log → v = Sight.kept given answer) :
    Recalls host vars options earlier scopes (w.seeing (.read path v)) where
  opened := recalls.opened
  given := recalls.given
  asked := recalls.asked
  calls := recalls.calls
  handling := recalls.handling.sees trivial ⟨reads, follows⟩ (by simp [Sight.handledPath?])
  held other c given answer scopes seen := by
    rcases List.mem_cons.mp seen with same | earlier
    · cases same
    · exact recalls.held other c given answer scopes earlier
  noted other u found := (recalls.noted other u found).later _

/- A path without a note has not had its handler called. -/
theorem fresh (recalls : Recalls host vars options earlier scopes w) {path : String}
    (unmade : w.run.frame.handled.lookup path = none) {c : Callable} {given : Value}
    {answer : Except CallFault Value} {within : List Scope} : .handled path c given answer within ∉ w.log := by
  intro seen
  rw [recalls.held path c given answer within seen] at unmade
  cases unmade

theorem calling (recalls : Recalls host vars options earlier scopes w) {path : String} {c : Callable} {v : Value}
    (free : Free scopes path) (raw : rawValue vars options.defaults path = .ok v) (there : v.isMissing = false)
    (found : Path.under options.handlers path = .ok (.callable c)) (unmade : w.run.frame.handled.lookup path = none) :
    Attends host vars options earlier scopes (w.handling host path c v) where
  opened := recalls.opened
  given := recalls.given
  asked := recalls.asked
  calls := congrArg (List.cons (c, [v])) recalls.calls
  handling := by
    refine recalls.handling.sees ⟨raw, there, found, rfl, ?_⟩ trivial ?_
    · rwa [recalls.opened]
    · intro other named called
      cases named
      obtain ⟨x, seen, named⟩ := List.mem_filterMap.mp called
      cases x with
      | handled =>
        cases named
        exact recalls.fresh unmade seen
      | called | read => cases named

/- The path is noted with what came of the call. -/
theorem notes (recalls : Recalls host vars options earlier scopes w) {path : String} {c : Callable} {v : Value}
    (unmade : w.run.frame.handled.lookup path = none)
    (after : Attends host vars options earlier scopes (w.handling host path c v)) :
    Recalls host vars options earlier scopes
      ((w.handling host path c v).noting path (Sight.kept v (host.apply c [v]))) := by
  have before : (w.handling host path c v).run.frame.handled = w.run.frame.handled := rfl
  refine ⟨⟨after.opened, after.given, after.asked, after.calls, after.handling⟩, ?_, ?_⟩
  · intro other d given answer within seen
    rw [Watched.noting, Watched.moved, RunState.handling, before, List.lookup_append]
    rcases List.mem_cons.mp seen with same | earlier
    · cases same
      rw [unmade, Option.none_or, List.lookup_cons_self]
    · rw [recalls.held other d given answer within earlier, Option.some_or]
  · intro other u found
    rw [Watched.noting, Watched.moved, RunState.handling, before] at found
    rcases lookupAppended found with old | ⟨rfl, rfl⟩
    · exact (recalls.noted other u old).later _
    · exact .handled List.mem_cons_self

/- A path whose handler cannot be called is noted as it is. -/
theorem passes (recalls : Recalls host vars options earlier scopes w) {path : String} {v : Value}
    (plain : Sight.Reads vars options w.log path v) :
    Recalls host vars options earlier scopes (w.noting path v) := by
  refine ⟨⟨recalls.opened, recalls.given, recalls.asked, recalls.calls, recalls.handling⟩, ?_, ?_⟩
  · intro other d given answer within seen
    rw [Watched.noting, Watched.moved, RunState.handling, List.lookup_append,
      recalls.held other d given answer within seen, Option.some_or]
  · intro other u found
    rw [Watched.noting, Watched.moved, RunState.handling] at found
    rcases lookupAppended found with old | ⟨rfl, rfl⟩
    · exact recalls.noted other u old
    · exact plain

theorem lookup {path : String} (free : Free scopes path) :
    Mirrors (Recalls host vars options earlier scopes) (Attends host vars options earlier scopes)
      (Flows fun _ => True) (Watched.lookup host path) (Run.lookup host path) := by
  refine Watched.lookupMirrors (fun _ recalls => recalls.toAttends) ?plain ?again ?called ?uncalled
  case plain =>
    intro w v recalls raw unhandled
    rw [recalls.given, recalls.asked] at raw
    rw [recalls.asked] at unhandled
    have plain : Sight.Reads vars options w.log path v := by
      refine .plain raw (unhandled.imp_right fun free c under => ?_)
      cases free.symm.trans (Path.underHeld under)
    refine ⟨.inr trivial, recalls.reads plain fun c given answer within seen => ?_⟩
    -- What is missing or has no handler was not given to one.
    obtain ⟨raw', there, held⟩ := recalls.handling.present seen
    cases raw.symm.trans raw'
    rcases unhandled with absent | free
    · cases absent.symm.trans there
    · cases free.symm.trans held
  case again =>
    intro w u recalls noted
    refine ⟨.inr trivial, recalls.reads (recalls.noted path u noted) fun c given answer within seen => ?_⟩
    exact Option.some.inj (noted.symm.trans (recalls.held _ _ _ _ _ seen))
  case called =>
    intro w v c recalls raw there unmade found
    rw [recalls.given, recalls.asked] at raw
    rw [recalls.asked] at found
    have called := recalls.calling free raw there found unmade
    have noted := recalls.notes unmade called
    have here : .handled path c v (host.apply c [v]) w.run.frame.scopes ∈ (w.handling host path c v).log :=
      List.mem_cons_self
    refine ⟨called, .inr trivial, noted.reads (.handled here) fun d given answer within seen => ?_⟩
    exact Option.some.inj ((noted.held _ _ _ _ _ here).symm.trans (noted.held _ _ _ _ _ seen))
  case uncalled =>
    intro w v recalls raw there unmade unfound
    rw [recalls.given, recalls.asked] at raw
    rw [recalls.asked] at unfound
    have plain : Sight.Reads vars options w.log path v := .plain raw (.inr unfound)
    refine ⟨.inr trivial, (recalls.passes plain).reads plain fun c given answer within seen => ?_⟩
    exact absurd seen (recalls.fresh unmade)

end Recalls

theorem Passable.any : Passable fun _ => True :=
  ⟨trivial, fun _ => trivial, fun _ => trivial, fun _ _ _ _ => trivial, fun _ _ => .inr trivial⟩

theorem Template.holdsAny (t : Template) : t.Holds fun _ => True := fun i _ => by
  cases i <;> simp [Instruction.Holds]

/- Rendering keeps what is known of handlers. -/
theorem attentive (host : Host) (vars : Value) (options : RenderOptions) (earlier : List (Callable × List Value)) :
    Watchful host (fun _ => True) (Recalls host vars options earlier) (Attends host vars options earlier) where
  toPassable := .any
  scopes recalls := recalls.opened
  left attends := attends.opened
  fails recalls := recalls.toAttends
  moves recalls like := recalls.moves like
  leaves attends like := attends.moves like
  call scopes c args _ := by
    intro w before
    refine .ok (fun _ _ => trivial) ⟨⟨before.opened, before.given, before.asked, ?_, ?_⟩, ?_, ?_⟩
    · exact congrArg (List.cons (c, args)) before.calls
    · exact before.handling.sees trivial trivial (by simp [Sight.handledPath?])
    · intro path d given answer within seen
      rcases List.mem_cons.mp seen with same | earlier
      · cases same
      · exact before.held path d given answer within earlier
    · exact fun path v found => (before.noted path v found).later _
  lookup := Recalls.lookup

theorem Recalls.loads (e : Engine) {vars : Value} {options : RenderOptions} {earlier : List (Callable × List Value)}
    (scopes : List Scope) (text : String) :
    Mirrors (Recalls e.host vars options earlier scopes) (Attends e.host vars options earlier scopes)
      (Template.Holds fun _ => True) (Watched.carry (e.load text)) (e.load text) := by
  intro w before
  have recached (cache : Cache Template) : Recalls e.host vars options earlier scopes
      (w.moved { w.run with world := { w.run.world with cache := cache } }) :=
    ⟨⟨before.opened, before.given, before.asked, before.calls, before.handling⟩, before.held, before.noted⟩
  simp only [Watched.carry, Engine.loadEnds]
  cases (e.process text true w.run.world.cache).1 with
  | ok p => exact .ok p.template.holdsAny (recached _)
  | error fault => exact .error (recached _).toAttends

/- What a render shows of handlers, and that it called what was seen and nothing else. -/
def Attended (host : Host) (vars : Value) (options : RenderOptions) (earlier : List (Callable × List Value))
    (log : List Sight) (calls : List (Callable × List Value)) : Prop :=
  Handling host vars options log ∧ calls = log.filterMap Sight.call? ++ earlier

theorem Template.attended {host : Host} {hook : Watched.Hook} {includer : Includer} {vars : Value}
    {options : RenderOptions} {w : World} {earlier : List (Callable × List Value)} (t : Template)
    (same : w.calls = earlier)
    (hooked : Watchful.Hooked (Recalls host (givenVars vars) options earlier)
      (Attends host (givenVars vars) options earlier) (fun _ => True) hook includer) :
    t.Watches host hook vars options w includer (Attended host (givenVars vars) options earlier) := by
  refine (attentive host (givenVars vars) options earlier).render hooked t.holdsAny ?_ ⟨.empty, same⟩
    fun v attends => ⟨attends.handling, attends.calls⟩
  intro f begun
  obtain ⟨deadline, rfl⟩ := Frame.startEmpty begun
  exact ⟨⟨rfl, rfl, rfl, same, .empty⟩, by simp, by simp⟩

theorem Engine.hooked (e : Engine) (vars : Value) (options : RenderOptions) (earlier : List (Callable × List Value)) :
    Watchful.Hooked (Recalls e.host vars options earlier) (Attends e.host vars options earlier) (fun _ => True)
      (Watched.hook e) e.includer :=
  .some ((attentive e.host vars options earlier).inclusion (Recalls.loads e) _)

/- In every render, of a text or of a template that is already compiled, with includes or without, the handler of a
path is called once at most, with what the vars or the defaults have for the path, never for a missing one or one that
an open loop binds. Wherever no loop binds the path, it reads as what came of that call, or as the value before it if
the call failed; only what is missing or has no handler reads as it stands. Nothing else is called than what is seen. -/
theorem Engine.handlersOnce (e : Engine) (vars : Value) (options : RenderOptions) (w : World) :
    (∀ text, e.Watches text vars options w (Attended e.host (givenVars vars) options w.calls)) ∧
      ∀ t : Template,
        t.Watches e.host none vars options w none (Attended e.host (givenVars vars) options w.calls) ∧
        t.Watches e.host (Watched.hook e) vars options w e.includer
          (Attended e.host (givenVars vars) options w.calls) := by
  refine ⟨fun text => ?_, fun t => ⟨t.attended rfl .none, t.attended rfl (e.hooked _ _ _)⟩⟩
  exact watches ⟨.empty, rfl⟩ fun p cache _ => p.template.attended rfl (e.hooked _ _ _)

end
end Stencil
