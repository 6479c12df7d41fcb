import Stencil.Engine
import Stencil.Proofs.Translation

/-! What a cache can hold after it was used, and what comes of a text that may have been compiled before. -/
namespace Stencil

namespace Cache

variable {α : Type} {c : Cache α} {key : String} {revision : Int} {entry : CacheEntry α}

theorem othersKept : c.others key ⊆ c.entries := fun _ member => (List.mem_filter.mp member).1

theorem getKept (c : Cache α) (key : String) (asked : Option Int) :
    (c.get key asked).2.entries ⊆ c.entries := by
  rw [get]
  split
  · exact List.Subset.refl _
  · split
    · exact List.Subset.refl _
    · rename_i found
      split
      · exact othersKept
      · have here : _ ∈ c.entries := List.mem_of_find?_eq_some found
        intro other member
        rcases List.mem_append.mp member with left | only
        · exact othersKept left
        · rw [List.mem_singleton.mp only]
          exact here

theorem getFound (found : (c.get key (some revision)).1 = some entry) :
    entry ∈ c.entries ∧ entry.key = key ∧ entry.revision = revision := by
  rw [get] at found
  split at found
  · cases found
  · split at found
    · cases found
    · rename_i held
      split at found
      · cases found
      · rename_i current
        cases found
        refine ⟨List.mem_of_find?_eq_some held, by simpa using List.find?_some held, ?_⟩
        have same : revision = entry.revision := by simpa using current
        exact same.symm

theorem shrinkKept (limit : Nat) (es : List (CacheEntry α)) : shrink limit es ⊆ es := by
  rw [shrink]
  split
  · exact List.Subset.refl _
  · exact List.drop_subset _ _

theorem putKept {other : CacheEntry α} (member : other ∈ (c.put entry).entries) :
    other ∈ c.entries ∨ other = entry := by
  rw [put] at member
  split at member
  · exact .inl member
  · rcases List.mem_append.mp (shrinkKept _ _ member) with left | only
    · exact .inl (othersKept left)
    · exact .inr (List.mem_singleton.mp only)

end Cache

namespace Engine

/- A text is cut into tokens, these make a tree, and the tree makes a procedure. -/
theorem buildOk {e : Engine} {text : String} {p : Processed} :
    e.build text = .ok p ↔ ∃ tokens tree c, Token.scan e.settings.delimiters text = .ok tokens ∧
      Node.ofTokens e.settings.limits tokens = .ok tree ∧ Procedure.compile e.registry tree = .ok c ∧
      p = ⟨⟨Digest.sha1 text, tree, c.procedure, c.dependencies⟩, tokens.length, tree.all.length, false⟩ := by
  constructor
  · intro ok
    obtain ⟨tokens, scanned, ok⟩ := boundOk ok
    obtain ⟨tree, read, ok⟩ := boundOk ok
    obtain ⟨c, compiled, ok⟩ := boundOk ok
    cases ok
    exact ⟨tokens, tree, c, scanned, read, mappedOk compiled, rfl⟩
  · rintro ⟨tokens, tree, c, scanned, read, compiled, rfl⟩
    simp only [build, bind, Except.bind, scanned, read, compiled, Except.mapError, pure, Except.pure]

/- Every entry of one cache was in the other, save for one that was just made of a text. -/
def Adds (e : Engine) (text : String) (before after : Cache Template) : Prop :=
  ∀ entry ∈ after.entries, entry ∈ before.entries ∨
    ∃ p, e.build text = .ok p ∧ entry = ⟨Digest.sha1 text, e.registry.revision, p.template⟩

theorem processUncached (e : Engine) (text : String) (cache : Cache Template) :
    e.process text false cache = (e.build text, cache) := by
  simp only [process, Bool.false_eq_true, if_false]
  cases e.build text <;> rfl

/- A cache that is switched off makes no difference. -/
theorem processOff {e : Engine} {text : String} {p : Processed} {cache : Cache Template}
    (off : cache.enabled = false) (built : e.build text = .ok p) : e.process text true cache = (.ok p, cache) := by
  simp [process, Cache.get, Cache.put, off, built]

/- The template is found, or it is built. -/
theorem processEnds (e : Engine) (text : String) (cache : Cache Template) :
    e.Adds text cache (e.process text true cache).2 ∧
      ((e.process text true cache).1 = e.build text ∨
        ∃ entry ∈ cache.entries, entry.key = Digest.sha1 text ∧ entry.revision = e.registry.revision ∧
          (e.process text true cache).1 = .ok ⟨entry.item, 0, 0, true⟩) := by
  have kept := cache.getKept (Digest.sha1 text) (some e.registry.revision)
  simp only [process, if_true]
  cases found : (cache.get (Digest.sha1 text) (some e.registry.revision)).1 with
  | some entry =>
    obtain ⟨member, key, revision⟩ := Cache.getFound found
    exact ⟨fun other inside => .inl (kept inside), .inr ⟨entry, member, key, revision, rfl⟩⟩
  | none =>
    dsimp only
    cases built : e.build text with
    | error fault => exact ⟨fun other inside => .inl (kept inside), .inl rfl⟩
    | ok p =>
      refine ⟨fun other inside => ?_, .inl rfl⟩
      rcases Cache.putKept inside with old | rfl
      · exact .inl (kept old)
      · exact .inr ⟨p, built, rfl⟩

/- What a cache holds for a text at the present revision is what would be compiled now. This is so of an empty
cache and, as long as no two texts have one digest, of every cache that engines have filled. -/
def Honest (e : Engine) (text : String) (cache : Cache Template) : Prop :=
  ∀ entry ∈ cache.entries, entry.key = Digest.sha1 text → entry.revision = e.registry.revision →
    ∃ p, e.build text = .ok p ∧ p.template = entry.item

/- Such a cache makes no difference. -/
theorem Honest.transparent {e : Engine} {text : String} {cache : Cache Template}
    (honest : e.Honest text cache) :
    (e.process text true cache).1.map (·.template) = (e.build text).map (·.template) := by
  obtain ⟨-, fresh | ⟨entry, member, key, current, hit⟩⟩ := e.processEnds text cache
  · rw [fresh]
  · obtain ⟨p, built, same⟩ := honest entry member key current
    rw [hit, built]
    simp [Except.map, same]

/- It stays so for a text when another one is compiled that is told apart from it. -/
theorem Honest.kept {e : Engine} {text other : String} {cache : Cache Template} (honest : e.Honest text cache)
    (told : Digest.sha1 text = Digest.sha1 other → text = other) :
    e.Honest text (e.process other true cache).2 := by
  intro entry member key current
  rcases (e.processEnds other cache).1 entry member with old | ⟨p, built, rfl⟩
  · exact honest entry old key current
  · obtain rfl : text = other := told key.symm
    exact ⟨p, built, rfl⟩

theorem renderBuilt {e : Engine} {text : String} {p : Processed} {w : World}
    (honest : e.Honest text w.cache) (built : e.build text = .ok p) (vars : Value) (options : RenderOptions) :
    e.render text vars options w = p.template.render e.host e.includer vars options
      { w with cache := (e.process text true w.cache).2 } := by
  have transparent := honest.transparent
  rw [built] at transparent
  rw [Engine.render]
  split
  · rename_i fault cache failed
    simp [failed, Except.map] at transparent
  · rename_i q cache ended
    rw [ended] at transparent ⊢
    rw [show q.template = p.template from Except.ok.inj transparent]

theorem loadEnds (e : Engine) (text : String) (s : RunState) :
    e.load text s =
      let after := { s with world := { s.world with cache := (e.process text true s.world.cache).2 } }
      match (e.process text true s.world.cache).1 with
      | .ok p => .ok p.template after
      | .error fault => .error (.template fault) after := by
  simp only [load, bind, EStateM.bind, modifyGet, MonadStateOf.modifyGet, EStateM.modifyGet]
  cases (e.process text true s.world.cache).1 <;> rfl

end Engine
end Stencil
