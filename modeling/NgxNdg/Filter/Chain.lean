import NgxNdg.Lib.CallChain

/-!
# The chains of filters

`ngx_http_ndg_filter_init` puts the filters of the module in front of the filters that are there.
The other filter modules of a build do so with a header filter, a body filter or both, and each of
them has its own `ngx_http_next_header_filter` and `ngx_http_next_body_filter`. The last filters,
which send the output, save nothing.
-/

namespace NgxNdg

/-- A filter module: this one, or one of the others. -/
inductive FilterModule where
  | ndgFilter
  | other (i : ℕ)
  deriving DecidableEq

/-- The chains from `ngx_http_top_header_filter` and `ngx_http_top_body_filter` on; the end of a
chain is the last filter. -/
structure FilterChains where
  header : CallChain FilterModule
  body : CallChain FilterModule

def ngxHttpNdgFilterInit (c : FilterChains) : FilterChains where
  header := c.header.enter .ndgFilter
  body := c.body.enter .ndgFilter

/-- The initialization of a filter module. -/
inductive FilterInit where
  | ndgFilter
  | other (i : ℕ) (header body : Bool)

def filterInit (c : FilterChains) : FilterInit → FilterChains
  | .ndgFilter => ngxHttpNdgFilterInit c
  | .other i header body =>
    { header := if header then c.header.enter (.other i) else c.header
      body := if body then c.body.enter (.other i) else c.body }

/-- The module whose header filter is installed, if it has one. -/
def FilterInit.header? : FilterInit → Option FilterModule
  | .ndgFilter => some .ndgFilter
  | .other i header _ => if header then some (.other i) else none

/-- The module whose body filter is installed, if it has one. -/
def FilterInit.body? : FilterInit → Option FilterModule
  | .ndgFilter => some .ndgFilter
  | .other i _ body => if body then some (.other i) else none

/-- The chains behind the initialization of all the modules. -/
def filterChains (inits : List FilterInit) : FilterChains :=
  inits.foldl filterInit ⟨.built [], .built []⟩

theorem filterChains_eq (inits : List FilterInit) :
    filterChains inits =
      ⟨.built (inits.filterMap FilterInit.header?), .built (inits.filterMap FilterInit.body?)⟩ := by
  induction inits using List.reverseRecOn with
  | nil => rfl
  | append_singleton inits i ih =>
    rw [filterChains, List.foldl_append, ← filterChains, ih, List.filterMap_append,
      List.filterMap_append]
    cases i with
    | ndgFilter => simp [filterInit, ngxHttpNdgFilterInit, FilterInit.header?, FilterInit.body?,
        CallChain.built_concat]
    | other i header body =>
      cases header <;> cases body <;>
        simp [filterInit, FilterInit.header?, FilterInit.body?, CallChain.built_concat]

/-- **Chains that end.** The headers and the body of a response come to the last filter exactly
when no module has installed a filter for them twice; they go through each filter once, and through
the one that was installed last first. -/
theorem filter_chains_iff (inits : List FilterInit) (l : List FilterModule) :
    ((∃ fuel, (filterChains inits).header.calls fuel (filterChains inits).header.top = some l) ↔
      (inits.filterMap FilterInit.header?).Nodup ∧
        l = (inits.filterMap FilterInit.header?).reverse) ∧
    ((∃ fuel, (filterChains inits).body.calls fuel (filterChains inits).body.top = some l) ↔
      (inits.filterMap FilterInit.body?).Nodup ∧
        l = (inits.filterMap FilterInit.body?).reverse) := by
  rw [filterChains_eq]
  exact ⟨CallChain.calls_built_iff _, CallChain.calls_built_iff _⟩

end NgxNdg
