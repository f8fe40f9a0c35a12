import NgxNdg.Conf.Model

/-!
# Inheritance of the directives

The six modules that merge their field hand it down to nested locations. The other three leave
the field of their directive out of the merge, so a nested location without the directive of its
own has the default, whatever stands around it.

## Main definitions

- `SetsOwn`: a location without the directive lies in none that sets it to more than the default
-/

namespace NgxNdg

open ScopeTree

variable {κ : Type*} {α : Type*} [DecidableEq α]

/-- What is in effect where `conf` is configured. -/
def effectOf (unset default conf : α) : α := if conf = unset then default else conf

theorem ngxConfMerge_eq (unset conf prev default : α) :
    ngxConfMerge unset conf prev default =
      if conf = unset then effectOf unset default prev else conf := rfl

theorem ngxConfMerge_ne_unset {unset default : α} (h : default ≠ unset) (conf prev : α) :
    ngxConfMerge unset conf prev default ≠ unset := by
  unfold ngxConfMerge
  split
  · split
    · exact h
    · assumption
  · assumption

theorem effectOf_of_ne {unset default conf : α} (h : conf ≠ unset) :
    effectOf unset default conf = conf := if_neg h

/-- The locations without the directive lie in none that sets it to more than the default. -/
def SetsOwn {β γ : Type*} (t : Scope β) (setting : β → Option γ) (default : γ) : Prop :=
  ∀ p a rest, t.enclosing p = some (a :: rest) → setting a = none →
    ∀ v, rest.findSome? setting = some v → v = default

/-- A field that the merge callback merges is inherited. -/
theorem inherited_of_ngxConfMerge (t : Scope (LocDirectives κ)) {field : LocConfs κ → α}
    {setting : LocDirectives κ → Option α} (unset : α) {default : α} (hdefault : default ≠ unset)
    (hset : ∀ a v, setting a = some v → v ≠ unset)
    (hcreate : field LocConfs.create = unset)
    (hparse : ∀ a, field (LocConfs.parse a) = (setting a).getD unset)
    (hmerge : ∀ prev conf, field (LocConfs.merge prev conf) =
      ngxConfMerge unset (field conf) (field prev) default) :
    Inherited (mergeLocations t) t field setting default := by
  apply inherited_of_merge fun b => effectOf unset default (field b)
  · intro b a
    rw [hmerge, hparse, ngxConfMerge_eq]
    cases ha : setting a with
    | none => exact if_pos rfl
    | some v => exact if_neg (hset a v ha)
  · intro b a
    rw [hmerge]
    exact effectOf_of_ne (ngxConfMerge_ne_unset hdefault _ _)
  · show effectOf unset default (field LocConfs.create) = default
    rw [hcreate]
    exact if_pos rfl

theorem ngxFlag_ne_unset (on : Bool) : ngxFlag on ≠ ngxConfUnset := by
  cases on <;> decide

/-- The flag of one of the five modules is inherited. -/
theorem flag_inherited (t : Scope (LocDirectives κ)) {field : LocConfs κ → EnableLocConf}
    {directive : LocDirectives κ → Option Bool}
    (hcreate : field LocConfs.create = enableCreateLocConf)
    (hparse : ∀ a, field (LocConfs.parse a) = setFlag (directive a) (field LocConfs.create))
    (hmerge : ∀ prev conf, field (LocConfs.merge prev conf) =
      enableMergeLocConf 0 (field prev) (field conf)) :
    Inherited (mergeLocations t) t (fun b => (field b).enable)
      (fun a => (directive a).map ngxFlag) 0 := by
  apply inherited_of_ngxConfMerge t ngxConfUnset
  · decide
  · intro a v hv
    obtain ⟨on, _, rfl⟩ := Option.map_eq_some_iff.mp hv
    exact ngxFlag_ne_unset on
  · rw [hcreate]
    rfl
  · intro a
    rw [hparse, hcreate]
    cases directive a <;> rfl
  · intro prev conf
    rw [hmerge]
    rfl

theorem thread_inherited (t : Scope (LocDirectives κ)) :
    Inherited (mergeLocations t) t (fun b => b.thread.poolname) (fun a => a.ndgThread.map some)
      (some defaultPoolname) := by
  apply inherited_of_ngxConfMerge t none
  · exact Option.some_ne_none _
  · intro a v hv
    obtain ⟨name, _, rfl⟩ := Option.map_eq_some_iff.mp hv
    exact Option.some_ne_none _
  · rfl
  · intro a
    rw [LocConfs.parse_poolname]
    cases a.ndgThread <;> rfl
  · intro prev conf
    rfl

theorem upstream_inherited_iff (t : Scope (LocDirectives κ)) :
    Inherited (mergeLocations t) t (fun b => b.upstream.upstream)
        (fun a => a.ndgUpstreamPass.map some) none ↔
      SetsOwn t (fun a => a.ndgUpstreamPass.map some) none := by
  apply inherited_iff_of_forget
  intro b a
  refine (LocConfs.parse_upstream a).trans ?_
  cases a.ndgUpstreamPass <;> rfl

/-- A field that no directive sets has its default in every location. -/
theorem default_of_no_directive {t : Scope (LocDirectives κ)} {p : List ℕ} {conf : LocConfs κ}
    (hconf : (mergeLocations t).label? p = some conf) {field : LocConfs κ → α} (unset : α)
    {default : α} (hdefault : default ≠ unset) (hparse : ∀ a, field (LocConfs.parse a) = unset)
    (hcreate : field LocConfs.create = unset)
    (hmerge : ∀ prev conf, field (LocConfs.merge prev conf) =
      ngxConfMerge unset (field conf) (field prev) default) : field conf = default := by
  have hinherited : Inherited (mergeLocations t) t field (fun _ => none) default :=
    inherited_of_ngxConfMerge t unset hdefault (fun _ _ h => nomatch h) hcreate hparse hmerge
  obtain ⟨chain, hchain, -⟩ := Option.map_eq_some_iff.mp ((label?_mergeDown t p).symm.trans hconf)
  obtain ⟨b, hb, hvalue⟩ := hinherited p chain hchain
  obtain rfl := Option.some.inj (hconf.symm.trans hb)
  rw [hvalue, List.findSome?_eq_none_iff.mpr fun _ _ => rfl]
  rfl

/-- The numbers that nginx drives an upstream with are the defaults in every location. -/
theorem upstream_numbers {t : Scope (LocDirectives κ)} {p : List ℕ} {conf : LocConfs κ}
    (hconf : (mergeLocations t).label? p = some conf) :
    conf.upstream.connectTimeout = 1000 ∧ conf.upstream.sendTimeout = 1000 ∧
      conf.upstream.readTimeout = 1000 ∧ conf.upstream.bufferSize = 4096 := by
  have hunset : ∀ n : UInt64, n = 1000 ∨ n = 4096 → n ≠ ngxConfUnsetUint := by
    rintro n (rfl | rfl) <;> decide
  have hparse : ∀ a : LocDirectives κ, (LocConfs.parse a).upstream =
      { ngxHttpNdgUpstreamCreateLocConf with upstream := a.ndgUpstreamPass } := by
    intro a
    unfold LocConfs.parse
    cases a.ndgUpstreamPass <;> rfl
  refine ⟨?_, ?_, ?_, ?_⟩
  all_goals
    apply default_of_no_directive hconf ngxConfUnsetUint
    · exact hunset _ (by decide)
    · intro a
      rw [hparse]
      rfl
    · rfl
    · exact fun _ _ => rfl

theorem subrequest_inherited_iff (t : Scope (LocDirectives κ)) :
    Inherited (mergeLocations t) t (fun b => b.subrequest.uri.getD []) LocDirectives.ndgSubrequest
        [] ↔
      SetsOwn t LocDirectives.ndgSubrequest [] := by
  apply inherited_iff_of_forget
  intro b a
  exact congrArg (fun uri => uri.getD []) (LocConfs.parse_uri a)

theorem complexValue_inherited_iff (t : Scope (LocDirectives κ)) :
    Inherited (mergeLocations t) t (fun b => b.complexValue.cv)
        (fun a => a.ndgComplexValue.map some) none ↔
      SetsOwn t (fun a => a.ndgComplexValue.map some) none := by
  apply inherited_iff_of_forget
  intro b a
  refine (LocConfs.parse_cv a).trans ?_
  cases a.ndgComplexValue <;> rfl

/-- **Inheritance.** In every tree of locations the enable flags and the name of the thread pool
are inherited. The upstream, the uri of the subrequest and the complex value are inherited
exactly when no location relies on it. -/
theorem directives_inherited_iff (t : Scope (LocDirectives κ)) :
    Inherited (mergeLocations t) t (fun b => b.hello.enable) (fun a => a.ndgHello.map ngxFlag) 0 ∧
    Inherited (mergeLocations t) t (fun b => b.basic.enable) (fun a => a.ndgBasic.map ngxFlag) 0 ∧
    Inherited (mergeLocations t) t (fun b => b.advance.enable)
      (fun a => a.ndgAdvance.map ngxFlag) 0 ∧
    Inherited (mergeLocations t) t (fun b => b.debug.enable) (fun a => a.ndgDebug.map ngxFlag) 0 ∧
    Inherited (mergeLocations t) t (fun b => b.variable'.enable)
      (fun a => a.ndgVariable.map ngxFlag) 0 ∧
    Inherited (mergeLocations t) t (fun b => b.thread.poolname) (fun a => a.ndgThread.map some)
      (some defaultPoolname) ∧
    (Inherited (mergeLocations t) t (fun b => b.upstream.upstream)
        (fun a => a.ndgUpstreamPass.map some) none ↔
      SetsOwn t (fun a => a.ndgUpstreamPass.map some) none) ∧
    (Inherited (mergeLocations t) t (fun b => b.subrequest.uri.getD [])
        LocDirectives.ndgSubrequest [] ↔
      SetsOwn t LocDirectives.ndgSubrequest []) ∧
    (Inherited (mergeLocations t) t (fun b => b.complexValue.cv)
        (fun a => a.ndgComplexValue.map some) none ↔
      SetsOwn t (fun a => a.ndgComplexValue.map some) none) := by
  refine ⟨?_, ?_, ?_, ?_, ?_, thread_inherited t, upstream_inherited_iff t,
    subrequest_inherited_iff t, complexValue_inherited_iff t⟩
  · exact flag_inherited t rfl (fun _ => rfl) fun _ _ => rfl
  · exact flag_inherited t rfl (fun _ => rfl) fun _ _ => rfl
  · exact flag_inherited t rfl (fun _ => rfl) fun _ _ => rfl
  · exact flag_inherited t rfl (fun _ => rfl) fun _ _ => rfl
  · exact flag_inherited t rfl (fun _ => rfl) fun _ _ => rfl

/-- A location within a location that has the `ndg_subrequest` uri `/`, an upstream and a complex
value. -/
def nestedLocations : Scope (LocDirectives ℕ) :=
  .node .empty
    [.node ⟨none, none, none, none, none, none, some 1, some [47], some 7⟩ [.node .empty []]]

/-- The inner location has none of the three. -/
theorem directives_dropped :
    ¬ Inherited (mergeLocations nestedLocations) nestedLocations
      (fun b => b.subrequest.uri.getD []) LocDirectives.ndgSubrequest [] ∧
    ¬ Inherited (mergeLocations nestedLocations) nestedLocations (fun b => b.upstream.upstream)
      (fun a => a.ndgUpstreamPass.map some) none ∧
    ¬ Inherited (mergeLocations nestedLocations) nestedLocations (fun b => b.complexValue.cv)
      (fun a => a.ndgComplexValue.map some) none := by
  refine ⟨fun h => ?_, fun h => ?_, fun h => ?_⟩
  all_goals
    obtain ⟨b, hb, hvalue⟩ := h [0, 0] _ rfl
    obtain rfl := Option.some.inj hb
    exact absurd hvalue (by decide)

end NgxNdg
