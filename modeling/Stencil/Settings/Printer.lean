import Stencil.Settings.Basic

/-! Settings as values: what reading accepts, with every field given. -/
namespace Stencil

def Delimiters.toEntries (d : Delimiters) : Entries :=
  .ofTexts (d.named.map (fun p => (p.1, .str p.2)) ++ [("ignore_case", .bool d.ignoreCase)])

def Limits.toEntries (l : Limits) : Entries :=
  .ofTexts [("max_depth", .int l.depth), ("allow_empty_variables", .bool l.allowEmpty)]

def RenderOptions.toEntries (o : RenderOptions) : Entries :=
  .ofTexts [("strict", o.strict.given), ("timeout_ms", o.timeout.toValue),
    ("auto_escape", o.escape.given), ("default_values", o.defaults),
    ("variable_handlers", o.handlers)]

def CacheSettings.toEntries (c : CacheSettings) : Entries :=
  .ofTexts [("enabled", .bool c.enabled), ("max_entries", .int c.limit)]

def IncludeSettings.toEntries (c : IncludeSettings) : Entries :=
  .ofTexts [("dir", .str c.dir), ("suffix", .str c.suffix)]

def Settings.toEntries (s : Settings) : Entries :=
  .ofTexts [("lexer", .map s.delimiters.toEntries), ("parser", .map s.limits.toEntries),
    ("render", .map s.render.toEntries), ("cache", .map s.cache.toEntries),
    ("includes", .map s.includes.toEntries), ("max_include_depth", .int s.includeDepth)]

end Stencil
