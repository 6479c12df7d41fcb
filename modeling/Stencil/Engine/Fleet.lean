import Stencil.Engine

/-! Several engines that share one registry. A change that goes through an engine empties the cache of
that engine; one that is made on the registry directly leaves the caches alone, and what they hold for
an older revision is not used again. -/
namespace Stencil

structure Station where
  settings : Settings
  cache : Cache Template
  deriving Repr

structure Fleet where
  registry : Registry
  stations : List Station
  deriving Repr

namespace Fleet

/- New engines. A switch, if there is one, overrules their settings on caching. -/
def start (registry : Registry) (switch : Option String) (settings : List Settings) : Fleet :=
  ⟨registry, settings.map (fun s => ⟨s, .start switch s.cache.enabled s.cache.limit⟩)⟩

def station (f : Fleet) (i : Nat) : Station :=
  f.stations.getD i ⟨.standard, .empty true 0⟩

def withCache (f : Fleet) (i : Nat) (cache : Cache Template) : Fleet :=
  { f with stations := f.stations.modify i (fun s => { s with cache := cache }) }

def clear (f : Fleet) (i : Nat) : Nat × Fleet :=
  let (n, cache) := (f.station i).cache.clear
  (n, f.withCache i cache)

/- The change of the registry goes through an engine, or through none. -/
def settle (f : Fleet) (through : Option Nat) (registry : Registry) : Fleet :=
  let f := { f with registry := registry }
  match through with
  | some i => (f.clear i).2
  | none => f

def insert (f : Fleet) (through : Option Nat) (role : Role) (name callable : Value) :
    Except ValueFault Fleet :=
  (f.registry.insert role name callable).map (f.settle through)

/- Removes a name, and tells whether it was there. If it was not, nothing changes. -/
def erase (f : Fleet) (through : Option Nat) (role : Role) (name : String) : Bool × Fleet :=
  match f.registry.erase role name with
  | (true, registry) => (true, f.settle through registry)
  | (false, _) => (false, f)

def engine (f : Fleet) (i : Nat) (loader : Option Loader) (host : Host) : Engine :=
  ⟨(f.station i).settings, f.registry, loader, host⟩

def process (f : Fleet) (i : Nat) (loader : Option Loader) (host : Host) (text : String)
    (useCache : Bool) : Except TemplateError Processed × Fleet :=
  let (result, cache) := (f.engine i loader host).process text useCache (f.station i).cache
  (result, f.withCache i cache)

end Fleet
end Stencil
