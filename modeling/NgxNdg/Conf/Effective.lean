import NgxNdg.Conf.Location
import NgxNdg.Lib.Directive

/-!
# The configurations of a location

A tree of location blocks is accepted when every upstream and every complex value in it could be
made and no block sets a slot twice. The order of the directives in a block matters for the
content handler, the upstream and the complex value, which are those of the last directive, and
for the list of headers. The merge is then the one of the settings of the blocks.

## Main definitions

- `HttpDirective.WellFormed`, `Accepted`: the directives and the blocks that nginx accepts
- `blockSettings`, `HttpLocConfs.parse`: what a block sets
-/

namespace NgxNdg

open Directive Transition ScopeTree

variable {κ : Type*}

/-- The flag that a directive sets for the module `m`. -/
def HttpDirective.flag? (m : FlagModule) : HttpDirective κ → Option Bool
  | .ndgFlag m' on => if m' = m then some on else none
  | _ => none

def HttpDirective.poolname? : HttpDirective κ → Option (List UInt8)
  | .ndgThread poolname => some poolname
  | _ => none

def HttpDirective.upstream? : HttpDirective κ → Option ℕ
  | .ndgUpstreamPass added => added
  | _ => none

def HttpDirective.uri? : HttpDirective κ → Option (List UInt8)
  | .ndgSubrequest uri => some uri
  | _ => none

def HttpDirective.cv? : HttpDirective κ → Option κ
  | .ndgComplexValue compiled => compiled
  | _ => none

def HttpDirective.msg? : HttpDirective κ → Option NgxStr
  | .ndgEcho msg => some msg.toNgxStr
  | _ => none

def HttpDirective.header? : HttpDirective κ → Option NgxKeyval
  | .ndgHeader header => some header
  | _ => none

def HttpDirective.footer? : HttpDirective κ → Option NgxStr
  | .ndgFooter footer => some footer.toNgxStr
  | _ => none

/-- The content handler that a directive sets. -/
def HttpDirective.handler? : HttpDirective κ → Option HttpContentHandler
  | .ndgThread _ => some .ndgThread
  | .ndgUpstreamPass _ => some .ndgUpstream
  | .ndgEcho _ => some .ndgEcho
  | _ => none

/-- What nginx makes for the directive, an upstream or a complex value, could be made. -/
def HttpDirective.WellFormed : HttpDirective κ → Prop
  | .ndgUpstreamPass added => added.isSome
  | .ndgComplexValue compiled => compiled.isSome
  | _ => True

/-- The fields that a block may set once. -/
inductive HttpSlot where
  | flag (m : FlagModule)
  | poolname
  | uri
  | msg
  | footer

def HttpSlot.Value : HttpSlot → Type
  | .flag _ => ℤ
  | .poolname | .uri => List UInt8
  | .msg | .footer => NgxStr

def HttpSlot.field : (i : HttpSlot) → HttpLocConfs κ → Option i.Value
  | .flag m, conf => (setValue ngxConfUnset (m.conf conf.toLocConfs).enable : Option ℤ)
  | .poolname, conf => conf.thread.poolname
  | .uri, conf => conf.subrequest.uri
  | .msg, conf => (setValue ngxNullString conf.echo.msg : Option NgxStr)
  | .footer, conf => (setValue ngxNullString conf.filter.footer : Option NgxStr)

def HttpSlot.sets : (i : HttpSlot) → HttpDirective κ → Option i.Value
  | .flag m, d => ((d.flag? m).map ngxFlag : Option ℤ)
  | .poolname, d => d.poolname?
  | .uri, d => d.uri?
  | .msg, d => d.msg?
  | .footer, d => d.footer?

/-- The blocks that nginx accepts. -/
structure Accepted (block : List (HttpDirective κ)) : Prop where
  wellFormed : ∀ d ∈ block, d.WellFormed
  once : ∀ i : HttpSlot, (block.filterMap i.sets).length ≤ 1

/-- What a block sets for the nine modules that merge their configurations. -/
def blockSettings (block : List (HttpDirective κ)) : LocDirectives κ where
  ndgHello := (block.filterMap (HttpDirective.flag? .hello)).head?
  ndgBasic := (block.filterMap (HttpDirective.flag? .basic)).head?
  ndgAdvance := (block.filterMap (HttpDirective.flag? .advance)).head?
  ndgDebug := (block.filterMap (HttpDirective.flag? .debug)).head?
  ndgVariable := (block.filterMap (HttpDirective.flag? .variable')).head?
  ndgThread := (block.filterMap HttpDirective.poolname?).head?
  ndgUpstreamPass := (block.filterMap HttpDirective.upstream?).getLast?
  ndgSubrequest := (block.filterMap HttpDirective.uri?).head?
  ndgComplexValue := (block.filterMap HttpDirective.cv?).getLast?

/-- The configurations of an accepted block. -/
def HttpLocConfs.parse (block : List (HttpDirective κ)) : HttpLocConfs κ where
  toLocConfs := .parse (blockSettings block)
  echo := ⟨(block.filterMap HttpDirective.msg?).head?.getD ngxNullString⟩
  filter :=
    { headers :=
        if block.filterMap HttpDirective.header? = [] then none
        else some (block.filterMap HttpDirective.header?)
      footer := (block.filterMap HttpDirective.footer?).head?.getD ngxNullString }
  handler := (block.filterMap HttpDirective.handler?).getLast?

variable {conf conf' : HttpLocConfs κ} {d : HttpDirective κ} {block : List (HttpDirective κ)}

theorem FlagModule.conf_setConf (m m' : FlagModule) (c : EnableLocConf) (conf : LocConfs κ) :
    m'.conf (m.setConf c conf) = if m = m' then c else m'.conf conf := by
  cases m <;> cases m' <;> rfl

theorem ConfWord.toNgxStr_ne (w : ConfWord) : w.toNgxStr ≠ ngxNullString :=
  fun h => w.data_ne_zero (congrArg NgxStr.data h)

/-- What a directive does to the configurations of its block. -/
theorem httpDirective_cases (h : httpDirective conf d = some conf') :
    (∃ m on, d = .ndgFlag m on ∧ (m.conf conf.toLocConfs).enable = ngxConfUnset ∧
      conf' = { conf with toLocConfs := m.setConf ⟨ngxFlag on⟩ conf.toLocConfs }) ∨
    (∃ poolname, d = .ndgThread poolname ∧ conf.thread.poolname = none ∧
      conf' = { conf with thread := ⟨some poolname⟩, handler := some .ndgThread }) ∨
    (∃ u, d = .ndgUpstreamPass (some u) ∧
      conf' = { conf with
        upstream := { conf.upstream with upstream := some u }
        handler := some .ndgUpstream }) ∨
    (∃ uri, d = .ndgSubrequest uri ∧ conf.subrequest.uri = none ∧
      conf' = { conf with subrequest := ⟨some uri⟩ }) ∨
    (∃ cv, d = .ndgComplexValue (some cv) ∧
      conf' = { conf with complexValue := ⟨some cv⟩ }) ∨
    (∃ msg, d = .ndgEcho msg ∧ conf.echo.msg = ngxNullString ∧
      conf' = { conf with echo := ⟨msg.toNgxStr⟩, handler := some .ndgEcho }) ∨
    (∃ header, d = .ndgHeader header ∧
      conf' = { conf with filter := { conf.filter with
        headers := some (conf.filter.headers.getD [] ++ [header]) } }) ∨
    (∃ footer, d = .ndgFooter footer ∧ conf.filter.footer = ngxNullString ∧
      conf' = { conf with filter := { conf.filter with footer := footer.toNgxStr } }) := by
  cases d with
  | ndgFlag m on =>
    obtain ⟨enable, hslot, rfl⟩ := Option.map_eq_some_iff.mp h
    obtain ⟨hunset, rfl⟩ := ngxConfFlagSlot_eq_some.mp hslot
    exact .inl ⟨m, on, rfl, hunset, rfl⟩
  | ndgThread poolname =>
    obtain ⟨name, hslot, rfl⟩ := Option.map_eq_some_iff.mp h
    obtain ⟨hunset, rfl⟩ := ngxConfSlot_eq_some.mp hslot
    exact .inr (.inl ⟨poolname, rfl, hunset, rfl⟩)
  | ndgUpstreamPass added =>
    obtain ⟨u, rfl, rfl⟩ := Option.map_eq_some_iff.mp h
    exact .inr (.inr (.inl ⟨u, rfl, rfl⟩))
  | ndgSubrequest uri =>
    obtain ⟨uri', hslot, rfl⟩ := Option.map_eq_some_iff.mp h
    obtain ⟨hunset, rfl⟩ := ngxConfSlot_eq_some.mp hslot
    exact .inr (.inr (.inr (.inl ⟨uri, rfl, hunset, rfl⟩)))
  | ndgComplexValue compiled =>
    obtain ⟨cv, rfl, rfl⟩ := Option.map_eq_some_iff.mp h
    exact .inr (.inr (.inr (.inr (.inl ⟨cv, rfl, rfl⟩))))
  | ndgEcho msg =>
    obtain ⟨msg', hslot, rfl⟩ := Option.map_eq_some_iff.mp h
    obtain ⟨hunset, rfl⟩ := ngxConfSlot_eq_some.mp hslot
    exact .inr (.inr (.inr (.inr (.inr (.inl ⟨msg, rfl, hunset, rfl⟩)))))
  | ndgHeader header =>
    exact .inr (.inr (.inr (.inr (.inr (.inr (.inl ⟨header, rfl, (Option.some.inj h).symm⟩))))))
  | ndgFooter footer =>
    obtain ⟨footer', hslot, rfl⟩ := Option.map_eq_some_iff.mp h
    obtain ⟨hunset, rfl⟩ := ngxConfSlot_eq_some.mp hslot
    exact .inr (.inr (.inr (.inr (.inr (.inr (.inr ⟨footer, rfl, hunset, rfl⟩))))))

theorem HttpSlot.slot (i : HttpSlot) : Slot (httpDirective (κ := κ)) i.field i.sets := by
  intro conf d conf' h
  obtain ⟨m, on, rfl, hunset, rfl⟩ | ⟨poolname, rfl, hunset, rfl⟩ | ⟨u, rfl, rfl⟩ |
    ⟨uri, rfl, hunset, rfl⟩ | ⟨cv, rfl, rfl⟩ | ⟨msg, rfl, hunset, rfl⟩ | ⟨header, rfl, rfl⟩ |
    ⟨footer, rfl, hunset, rfl⟩ := httpDirective_cases h
  · have hfill := setValue_fill hunset (ngxFlag_ne_unset on)
    cases i with
    | flag m' =>
      show (setValue ngxConfUnset (m'.conf (m.setConf ⟨ngxFlag on⟩ conf.toLocConfs)).enable).toList
        = (setValue ngxConfUnset (m'.conf conf.toLocConfs).enable).toList ++
          ((if m = m' then some on else none).map ngxFlag).toList
      rw [FlagModule.conf_setConf]
      split
      case isTrue hm =>
        subst hm
        exact hfill
      case isFalse => exact (List.append_nil _).symm
    | _ => cases m <;> exact (List.append_nil _).symm
  · cases i with
    | poolname =>
      show [poolname] = conf.thread.poolname.toList ++ [poolname]
      rw [hunset]
      rfl
    | flag m => cases m <;> exact (List.append_nil _).symm
    | _ => exact (List.append_nil _).symm
  · cases i with
    | flag m => cases m <;> exact (List.append_nil _).symm
    | _ => exact (List.append_nil _).symm
  · cases i with
    | uri =>
      show [uri] = conf.subrequest.uri.toList ++ [uri]
      rw [hunset]
      rfl
    | flag m => cases m <;> exact (List.append_nil _).symm
    | _ => exact (List.append_nil _).symm
  · cases i with
    | flag m => cases m <;> exact (List.append_nil _).symm
    | _ => exact (List.append_nil _).symm
  · cases i with
    | msg =>
      have hfill := setValue_fill hunset msg.toNgxStr_ne
      exact hfill
    | _ => exact (List.append_nil _).symm
  · cases i with
    | _ => exact (List.append_nil _).symm
  · cases i with
    | footer =>
      have hfill := setValue_fill hunset footer.toNgxStr_ne
      exact hfill
    | _ => exact (List.append_nil _).symm

/-- A directive is refused when what nginx makes for it fails, or when it sets a slot again. -/
theorem httpDirective_accepted_iff :
    (∃ conf', httpDirective conf d = some conf') ↔
      d.WellFormed ∧ ∀ i : HttpSlot, ((i.field conf).toList ++ (i.sets d).toList).length ≤ 1 := by
  constructor
  · rintro ⟨conf', h⟩
    refine ⟨?_, fun i => ?_⟩
    · obtain ⟨m, on, rfl, -⟩ | ⟨poolname, rfl, -⟩ | ⟨u, rfl, -⟩ | ⟨uri, rfl, -⟩ | ⟨cv, rfl, -⟩ |
        ⟨msg, rfl, -⟩ | ⟨header, rfl, -⟩ | ⟨footer, rfl, -⟩ := httpDirective_cases h
      all_goals trivial
    · rw [← i.slot conf d conf' h]
      exact Option.length_toList_le
  · rintro ⟨hwf, hslots⟩
    have hunset : ∀ (i : HttpSlot) v, i.sets d = some v → i.field conf = none := by
      intro i v hsets
      have hle := hslots i
      rw [hsets, List.length_append, Option.toList_some, List.length_singleton] at hle
      exact Option.length_toList_eq_zero_iff.mp (by omega)
    cases d with
    | ndgFlag m on =>
      have hsets : (HttpDirective.ndgFlag m on : HttpDirective κ).flag? m = some on := if_pos rfl
      have hnone := setValue_eq_none_iff.mp
        (hunset (.flag m) _ (congrArg (Option.map ngxFlag) hsets))
      exact ⟨_, Option.map_eq_some_iff.mpr ⟨_, ngxConfFlagSlot_eq_some.mpr ⟨hnone, rfl⟩, rfl⟩⟩
    | ndgThread poolname =>
      have hnone : conf.thread.poolname = none := hunset .poolname _ rfl
      exact ⟨_, Option.map_eq_some_iff.mpr ⟨_, ngxConfSlot_eq_some.mpr ⟨hnone, rfl⟩, rfl⟩⟩
    | ndgUpstreamPass added =>
      obtain ⟨u, rfl⟩ := Option.isSome_iff_exists.mp hwf
      exact ⟨_, rfl⟩
    | ndgSubrequest uri =>
      have hnone : conf.subrequest.uri = none := hunset .uri _ rfl
      exact ⟨_, Option.map_eq_some_iff.mpr ⟨_, ngxConfSlot_eq_some.mpr ⟨hnone, rfl⟩, rfl⟩⟩
    | ndgComplexValue compiled =>
      obtain ⟨cv, rfl⟩ := Option.isSome_iff_exists.mp hwf
      exact ⟨_, rfl⟩
    | ndgEcho msg =>
      have hnone := setValue_eq_none_iff.mp (hunset .msg _ rfl)
      exact ⟨_, Option.map_eq_some_iff.mpr ⟨_, ngxConfSlot_eq_some.mpr ⟨hnone, rfl⟩, rfl⟩⟩
    | ndgHeader header => exact ⟨_, rfl⟩
    | ndgFooter footer =>
      have hnone := setValue_eq_none_iff.mp (hunset .footer _ rfl)
      exact ⟨_, Option.map_eq_some_iff.mpr ⟨_, ngxConfSlot_eq_some.mpr ⟨hnone, rfl⟩, rfl⟩⟩

-- The fields that every directive of their kind overwrites, and the headers.

theorem upstream_register :
    Register (httpDirective (κ := κ)) (fun conf => conf.upstream.upstream)
      HttpDirective.upstream? := by
  intro conf d conf' h
  obtain ⟨m, on, rfl, -, rfl⟩ | ⟨_, rfl, -, rfl⟩ | ⟨_, rfl, rfl⟩ | ⟨_, rfl, -, rfl⟩ |
    ⟨_, rfl, rfl⟩ | ⟨_, rfl, -, rfl⟩ | ⟨_, rfl, rfl⟩ | ⟨_, rfl, -, rfl⟩ := httpDirective_cases h
  · cases m <;> rfl
  all_goals rfl

theorem cv_register :
    Register (httpDirective (κ := κ)) (fun conf => conf.complexValue.cv) HttpDirective.cv? := by
  intro conf d conf' h
  obtain ⟨m, on, rfl, -, rfl⟩ | ⟨_, rfl, -, rfl⟩ | ⟨_, rfl, rfl⟩ | ⟨_, rfl, -, rfl⟩ |
    ⟨_, rfl, rfl⟩ | ⟨_, rfl, -, rfl⟩ | ⟨_, rfl, rfl⟩ | ⟨_, rfl, -, rfl⟩ := httpDirective_cases h
  · cases m <;> rfl
  all_goals rfl

theorem httpHandler_register :
    Register (httpDirective (κ := κ)) HttpLocConfs.handler HttpDirective.handler? := by
  intro conf d conf' h
  obtain ⟨m, on, rfl, -, rfl⟩ | ⟨_, rfl, -, rfl⟩ | ⟨_, rfl, rfl⟩ | ⟨_, rfl, -, rfl⟩ |
    ⟨_, rfl, rfl⟩ | ⟨_, rfl, -, rfl⟩ | ⟨_, rfl, rfl⟩ | ⟨_, rfl, -, rfl⟩ := httpDirective_cases h
  all_goals rfl

theorem header_listing :
    Listing (httpDirective (κ := κ)) (fun conf => conf.filter.headers.getD [])
      HttpDirective.header? := by
  intro conf d conf' h
  obtain ⟨m, on, rfl, -, rfl⟩ | ⟨_, rfl, -, rfl⟩ | ⟨_, rfl, rfl⟩ | ⟨_, rfl, -, rfl⟩ |
    ⟨_, rfl, rfl⟩ | ⟨_, rfl, -, rfl⟩ | ⟨_, rfl, rfl⟩ | ⟨_, rfl, -, rfl⟩ := httpDirective_cases h
  case inr.inr.inr.inr.inr.inr.inl => rfl
  all_goals exact (List.append_nil _).symm

/-- What no directive changes: the numbers that the upstream is driven with, and that an array
of headers has an element. -/
structure BlockFrame (conf : HttpLocConfs κ) : Prop where
  upstream : conf.upstream =
    { ngxHttpNdgUpstreamCreateLocConf with upstream := conf.upstream.upstream }
  headers : conf.filter.headers ≠ some []

theorem BlockFrame.step (hframe : BlockFrame conf) (h : httpDirective conf d = some conf') :
    BlockFrame conf' := by
  obtain ⟨hup, hheaders⟩ := hframe
  obtain ⟨m, on, rfl, -, rfl⟩ | ⟨_, rfl, -, rfl⟩ | ⟨_, rfl, rfl⟩ | ⟨_, rfl, -, rfl⟩ |
    ⟨_, rfl, rfl⟩ | ⟨_, rfl, -, rfl⟩ | ⟨_, rfl, rfl⟩ | ⟨_, rfl, -, rfl⟩ := httpDirective_cases h
  · cases m <;> exact ⟨hup, hheaders⟩
  · exact ⟨hup, hheaders⟩
  · have hset (u : ℕ) := congrArg
      (fun up : NgxHttpNdgUpstreamLocConf => { up with upstream := some u }) hup
    exact ⟨hset _, hheaders⟩
  · exact ⟨hup, hheaders⟩
  · exact ⟨hup, hheaders⟩
  · exact ⟨hup, hheaders⟩
  · refine ⟨hup, fun hnil => ?_⟩
    exact List.append_ne_nil_of_right_ne_nil _ (List.cons_ne_nil _ _) (Option.some.inj hnil)
  · exact ⟨hup, hheaders⟩

theorem HttpSlot.field_create (i : HttpSlot) : i.field (.create : HttpLocConfs κ) = none := by
  cases i with
  | flag m => cases m <;> exact setValue_unset _
  | _ => rfl

theorem BlockFrame.create : BlockFrame (.create : HttpLocConfs κ) :=
  ⟨rfl, (Option.some_ne_none _).symm⟩

/-- The flag that an accepted block leaves behind. -/
theorem conf_exec_httpDirective (h : httpLocation block = some conf) (m : FlagModule) :
    m.conf conf.toLocConfs =
      setFlag (block.filterMap (HttpDirective.flag? m)).head? enableCreateLocConf := by
  have hslot : setValue ngxConfUnset (m.conf conf.toLocConfs).enable =
      ((block.filterMap (HttpDirective.flag? m)).map ngxFlag).head? := by
    rw [List.map_filterMap]
    exact (HttpSlot.slot (.flag m)).exec_of_none (HttpSlot.field_create _) h
  rw [List.head?_map] at hslot
  have henable := eq_getD_setValue ngxConfUnset (m.conf conf.toLocConfs).enable
  rw [hslot] at henable
  cases hhead : (block.filterMap (HttpDirective.flag? m)).head? with
  | none =>
    rw [hhead] at henable
    exact congrArg EnableLocConf.mk henable
  | some on =>
    rw [hhead] at henable
    exact congrArg EnableLocConf.mk henable

theorem exec_httpDirective (h : httpLocation block = some conf) : conf = .parse block := by
  have hframe : BlockFrame conf :=
    exec_invariant (fun _ _ _ hframe hstep => BlockFrame.step hframe hstep) .create h
  apply HttpLocConfs.ext
  case hello => exact conf_exec_httpDirective h .hello
  case basic => exact conf_exec_httpDirective h .basic
  case advance => exact conf_exec_httpDirective h .advance
  case debug => exact conf_exec_httpDirective h .debug
  case variable' => exact conf_exec_httpDirective h .variable'
  case thread =>
    have hslot : conf.thread.poolname = (block.filterMap HttpDirective.poolname?).head? :=
      (HttpSlot.slot .poolname).exec_of_none (HttpSlot.field_create _) h
    show (⟨conf.thread.poolname⟩ : NgxHttpNdgThreadLocConf) =
      ⟨(LocConfs.parse (blockSettings block)).thread.poolname⟩
    rw [LocConfs.parse_poolname, hslot]
    rfl
  case upstream =>
    have hregister : conf.upstream.upstream = (block.filterMap HttpDirective.upstream?).getLast? :=
      (upstream_register.exec h).trans Option.or_none
    have hparse : (LocConfs.parse (blockSettings block)).upstream =
        { ngxHttpNdgUpstreamCreateLocConf with
          upstream := (blockSettings block).ndgUpstreamPass } := by
      unfold LocConfs.parse
      cases (blockSettings block).ndgUpstreamPass <;> rfl
    refine hframe.upstream.trans (Eq.trans ?_ hparse.symm)
    rw [hregister]
    rfl
  case subrequest =>
    have hslot : conf.subrequest.uri = (block.filterMap HttpDirective.uri?).head? :=
      (HttpSlot.slot .uri).exec_of_none (HttpSlot.field_create _) h
    show (⟨conf.subrequest.uri⟩ : NgxHttpNdgSubrequestLocConf) =
      ⟨(LocConfs.parse (blockSettings block)).subrequest.uri⟩
    rw [LocConfs.parse_uri, hslot]
    rfl
  case complexValue =>
    have hregister : conf.complexValue.cv = (block.filterMap HttpDirective.cv?).getLast? :=
      (cv_register.exec h).trans Option.or_none
    show (⟨conf.complexValue.cv⟩ : NgxHttpNdgComplexValueLocConf κ) =
      ⟨(LocConfs.parse (blockSettings block)).complexValue.cv⟩
    rw [LocConfs.parse_cv, hregister]
    rfl
  case echo =>
    have hslot : setValue ngxNullString conf.echo.msg =
        (block.filterMap HttpDirective.msg?).head? :=
      (HttpSlot.slot .msg).exec_of_none (HttpSlot.field_create _) h
    show (⟨conf.echo.msg⟩ : NgxHttpNdgEchoLocConf) = _
    rw [eq_getD_setValue ngxNullString conf.echo.msg, hslot]
    rfl
  case filter =>
    have hslot : setValue ngxNullString conf.filter.footer =
        (block.filterMap HttpDirective.footer?).head? :=
      (HttpSlot.slot .footer).exec_of_none (HttpSlot.field_create _) h
    have hlisting : conf.filter.headers.getD [] = block.filterMap HttpDirective.header? :=
      header_listing.exec h
    have hheaders : conf.filter.headers =
        if block.filterMap HttpDirective.header? = [] then none
        else some (block.filterMap HttpDirective.header?) := by
      rw [← hlisting]
      cases hconf : conf.filter.headers with
      | none => rfl
      | some headers =>
        have hne : headers ≠ [] := fun hnil => hframe.headers (hconf.trans (congrArg some hnil))
        exact (if_neg hne).symm
    show (⟨conf.filter.headers, conf.filter.footer⟩ : NgxHttpNdgFilterLocConf) = _
    rw [hheaders, eq_getD_setValue ngxNullString conf.filter.footer, hslot]
    rfl
  case handler => exact (httpHandler_register.exec h).trans Option.or_none

/-- The blocks that nginx accepts, and what they leave behind. -/
theorem httpLocation_eq_some_iff (block : List (HttpDirective κ)) (conf : HttpLocConfs κ) :
    httpLocation block = some conf ↔ Accepted block ∧ conf = .parse block := by
  have haccepted : (∃ conf, httpLocation block = some conf) ↔ Accepted block := by
    refine (exists_exec_iff HttpSlot.slot fun _ _ => httpDirective_accepted_iff).trans ?_
    simp only [HttpSlot.field_create, Option.toList_none, List.nil_append]
    exact ⟨fun h => ⟨h.1, h.2⟩, fun h => ⟨h.1, h.2⟩⟩
  constructor
  · intro h
    exact ⟨haccepted.mp ⟨conf, h⟩, exec_httpDirective h⟩
  · rintro ⟨haccept, rfl⟩
    obtain ⟨conf, h⟩ := haccepted.mpr haccept
    rwa [exec_httpDirective h] at h

theorem httpConf_eq_some_iff (t : Scope (List (HttpDirective κ))) (conf : Scope (HttpLocConfs κ)) :
    httpConf t = some conf ↔
      (∀ block, t.Mem block → Accepted block) ∧
        conf = mergeDown HttpLocConfs.merge .create (t.map HttpLocConfs.parse) := by
  unfold httpConf
  rw [Option.map_eq_some_iff]
  simp only [traverse_eq_some_iff httpLocation_eq_some_iff]
  constructor
  · rintro ⟨u, ⟨haccept, rfl⟩, rfl⟩
    exact ⟨haccept, rfl⟩
  · rintro ⟨haccept, rfl⟩
    exact ⟨_, ⟨haccept, rfl⟩, rfl⟩

/-- The configurations of the nine modules are those of the settings of the blocks. -/
theorem map_toLocConfs (t : Scope (List (HttpDirective κ))) :
    (mergeDown HttpLocConfs.merge .create (t.map HttpLocConfs.parse)).map HttpLocConfs.toLocConfs =
      mergeLocations (t.map blockSettings) := by
  rw [mergeDown_map, mergeLocations, mergeDown_map]
  exact map_mergeDown (fun _ _ => rfl) _ t

/-- What a module has of the settings of a block. -/
def FlagModule.setting : FlagModule → LocDirectives κ → Option Bool
  | .hello, d => d.ndgHello
  | .basic, d => d.ndgBasic
  | .advance, d => d.ndgAdvance
  | .debug, d => d.ndgDebug
  | .variable', d => d.ndgVariable

theorem FlagModule.inherited (t : Scope (LocDirectives κ)) (m : FlagModule) :
    Inherited (mergeLocations t) t (fun c => (m.conf c).enable)
      (fun d => (m.setting d).map ngxFlag) 0 := by
  cases m <;> exact flag_inherited t rfl (fun _ => rfl) fun _ _ => rfl

theorem flags_inherited (t : Scope (List (HttpDirective κ))) (m : FlagModule) :
    Inherited (mergeDown HttpLocConfs.merge .create (t.map HttpLocConfs.parse)) t
      (fun c => (m.conf c.toLocConfs).enable)
      (fun block => (block.filterMap (HttpDirective.flag? m)).head?.map ngxFlag) 0 := by
  have hinherited := m.inherited (t.map blockSettings)
  rw [← map_toLocConfs, inherited_map_iff] at hinherited
  have hsetting : (fun block : List (HttpDirective κ) =>
      (m.setting (blockSettings block)).map ngxFlag) =
        fun block => (block.filterMap (HttpDirective.flag? m)).head?.map ngxFlag := by
    funext block
    cases m <;> rfl
  rwa [hsetting] at hinherited

theorem poolname_inherited (t : Scope (List (HttpDirective κ))) :
    Inherited (mergeDown HttpLocConfs.merge .create (t.map HttpLocConfs.parse)) t
      (fun c => c.thread.poolname)
      (fun block => (block.filterMap HttpDirective.poolname?).head?.map some)
      (some defaultPoolname) := by
  have hinherited := thread_inherited (t.map blockSettings)
  rw [← map_toLocConfs, inherited_map_iff] at hinherited
  exact hinherited

/-- What a location has from its own block alone. -/
structure Own (block : List (HttpDirective κ)) (conf : HttpLocConfs κ) : Prop where
  uri : conf.subrequest.uri = (block.filterMap HttpDirective.uri?).head?
  upstream : conf.upstream.upstream = (block.filterMap HttpDirective.upstream?).getLast?
  cv : conf.complexValue.cv = (block.filterMap HttpDirective.cv?).getLast?
  msg : conf.echo.msg = (block.filterMap HttpDirective.msg?).head?.getD ngxNullString
  headers : conf.filter.headers.getD [] = block.filterMap HttpDirective.header?
  footer : conf.filter.footer = (block.filterMap HttpDirective.footer?).head?.getD ngxNullString
  handler : conf.handler = (block.filterMap HttpDirective.handler?).getLast?

theorem own_merge_parse (prev : HttpLocConfs κ) (block : List (HttpDirective κ)) :
    Own block (prev.merge (.parse block)) where
  uri := LocConfs.parse_uri (blockSettings block)
  upstream := LocConfs.parse_upstream (blockSettings block)
  cv := LocConfs.parse_cv (blockSettings block)
  msg := rfl
  headers := by
    show (if block.filterMap HttpDirective.header? = [] then none
      else some (block.filterMap HttpDirective.header?)).getD [] = _
    split
    case isTrue hnil => exact hnil.symm
    case isFalse => rfl
  footer := rfl
  handler := rfl

theorem httpConf_flags {t : Scope (List (HttpDirective κ))} {conf : Scope (HttpLocConfs κ)}
    (h : httpConf t = some conf) (m : FlagModule) :
    Inherited conf t (fun c => (m.conf c.toLocConfs).enable)
      (fun block => (block.filterMap (HttpDirective.flag? m)).head?.map ngxFlag) 0 := by
  obtain ⟨-, rfl⟩ := (httpConf_eq_some_iff t conf).mp h
  exact flags_inherited t m

theorem httpConf_own {t : Scope (List (HttpDirective κ))} {conf : Scope (HttpLocConfs κ)}
    (h : httpConf t = some conf) {p : List ℕ} (hblock : t.label? p = some block) :
    ∃ c, conf.label? p = some c ∧ Own block c := by
  obtain ⟨-, rfl⟩ := (httpConf_eq_some_iff t conf).mp h
  rw [mergeDown_map]
  obtain ⟨prev, hprev⟩ := exists_label?_mergeDown hblock
  exact ⟨_, hprev, own_merge_parse prev block⟩

/-- **The configurations of a location.** Whatever the order of the directives, a location has
the flags and the thread pool of the nearest block around it that sets them, and all the rest from
its own block. -/
theorem httpConf_effective {t : Scope (List (HttpDirective κ))} {conf : Scope (HttpLocConfs κ)}
    (h : httpConf t = some conf) :
    (∀ m : FlagModule, Inherited conf t (fun c => (m.conf c.toLocConfs).enable)
      (fun block => (block.filterMap (HttpDirective.flag? m)).head?.map ngxFlag) 0) ∧
    Inherited conf t (fun c => c.thread.poolname)
      (fun block => (block.filterMap HttpDirective.poolname?).head?.map some)
      (some defaultPoolname) ∧
    ∀ p block, t.label? p = some block → ∃ c, conf.label? p = some c ∧ Own block c := by
  refine ⟨httpConf_flags h, ?_, fun p block hblock => httpConf_own h hblock⟩
  obtain ⟨-, rfl⟩ := (httpConf_eq_some_iff t conf).mp h
  exact poolname_inherited t

/-- A flag around a location that has none of its own, and two headers there. -/
theorem httpConf_effective_inner :
    ∃ conf c, httpConf (.node [.ndgFlag .hello true]
        [.node [.ndgHeader ⟨⟨1, 10⟩, ⟨1, 11⟩⟩, .ndgEcho ⟨⟨5, 20⟩, by decide⟩,
          .ndgHeader ⟨⟨1, 12⟩, ⟨1, 13⟩⟩] []] : Scope (List (HttpDirective ℕ))) = some conf ∧
      conf.label? [0] = some c ∧ c.hello.enable = 1 ∧ c.handler = some .ndgEcho ∧
      c.filter.headers.getD [] = [⟨⟨1, 10⟩, ⟨1, 11⟩⟩, ⟨⟨1, 12⟩, ⟨1, 13⟩⟩] := by
  have hconf : httpConf (.node [.ndgFlag .hello true]
        [.node [.ndgHeader ⟨⟨1, 10⟩, ⟨1, 11⟩⟩, .ndgEcho ⟨⟨5, 20⟩, by decide⟩,
          .ndgHeader ⟨⟨1, 12⟩, ⟨1, 13⟩⟩] []] : Scope (List (HttpDirective ℕ))) = some _ := rfl
  obtain ⟨hflags, -, hown⟩ := httpConf_effective hconf
  obtain ⟨c, hc, hblock⟩ := hown [0] _ rfl
  obtain ⟨c', hc', henable⟩ := hflags .hello [0] _ rfl
  obtain rfl := Option.some.inj (hc.symm.trans hc')
  exact ⟨_, c, rfl, hc, henable, hblock.handler, hblock.headers⟩

/-- What the content handlers rely on: the message of the echo module has an address, the thread
module has the name of a pool, and the upstream module has an upstream, which nginx follows
without a check. -/
structure HandlerConfigured (c : HttpLocConfs κ) : Prop where
  msg : c.handler = some .ndgEcho → c.echo.msg.data ≠ 0
  poolname : c.handler = some .ndgThread → c.thread.poolname ≠ none
  upstream : c.handler = some .ndgUpstream → c.upstream.upstream ≠ none

/-- A content handler is set by a directive of the block. -/
theorem exists_directive_of_handler {handler : HttpContentHandler}
    (h : (block.filterMap HttpDirective.handler?).getLast? = some handler) :
    ∃ d ∈ block, d.handler? = some handler :=
  List.mem_filterMap.mp (List.mem_of_getLast? h)

/-- The directive that sets the echo handler sets a message. -/
theorem msg_of_handler (h : (block.filterMap HttpDirective.handler?).getLast? = some .ndgEcho) :
    ((block.filterMap HttpDirective.msg?).head?.getD ngxNullString).data ≠ 0 := by
  obtain ⟨d, hd, hset⟩ := exists_directive_of_handler h
  have hne : block.filterMap HttpDirective.msg? ≠ [] := by
    cases d with
    | ndgEcho msg => exact List.ne_nil_of_mem (List.mem_filterMap.mpr ⟨_, hd, rfl⟩)
    | _ => exact nomatch hset
  rw [List.head?_eq_some_head hne, Option.getD_some]
  obtain ⟨d', -, hmsg⟩ := List.mem_filterMap.mp (List.head_mem hne)
  cases d' with
  | ndgEcho msg =>
    rw [← Option.some.inj hmsg]
    exact msg.data_ne_zero
  | _ => exact nomatch hmsg

/-- The directive that sets the upstream handler sets an upstream. -/
theorem upstream_of_handler (haccept : Accepted block)
    (h : (block.filterMap HttpDirective.handler?).getLast? = some .ndgUpstream) :
    (block.filterMap HttpDirective.upstream?).getLast? ≠ none := by
  obtain ⟨d, hd, hset⟩ := exists_directive_of_handler h
  have hwf := haccept.wellFormed d hd
  cases d with
  | ndgUpstreamPass added =>
    obtain ⟨u, rfl⟩ := Option.isSome_iff_exists.mp hwf
    have hne : block.filterMap HttpDirective.upstream? ≠ [] :=
      List.ne_nil_of_mem (List.mem_filterMap.mpr ⟨_, hd, rfl⟩)
    exact fun hnone => hne (List.getLast?_eq_none_iff.mp hnone)
  | _ => exact nomatch hset

/-- **Configured handlers.** No location has a content handler without what the handler relies
on. -/
theorem httpConf_handlerConfigured {t : Scope (List (HttpDirective κ))}
    {conf : Scope (HttpLocConfs κ)} (h : httpConf t = some conf) {p : List ℕ} {c : HttpLocConfs κ}
    (hc : conf.label? p = some c) : HandlerConfigured c := by
  obtain ⟨haccept, rfl⟩ := (httpConf_eq_some_iff t conf).mp h
  rw [mergeDown_map] at hc
  obtain ⟨block, prev, hblock, rfl⟩ := exists_of_label?_mergeDown hc
  have hown := own_merge_parse prev block
  refine ⟨fun hhandler => ?_, fun _ => ?_, fun hhandler => ?_⟩
  · rw [hown.msg]
    exact msg_of_handler (hown.handler.symm.trans hhandler)
  · exact ngxConfMerge_ne_unset (Option.some_ne_none _) _ _
  · rw [hown.upstream]
    exact upstream_of_handler (haccept block ⟨p, hblock⟩) (hown.handler.symm.trans hhandler)

/-- The location of an upstream, and one in it. -/
theorem httpConf_handlerConfigured_upstream :
    ∃ conf c c', httpConf (.node [] [.node [.ndgUpstreamPass (some 1)] [.node [] []]] :
        Scope (List (HttpDirective ℕ))) = some conf ∧
      conf.label? [0] = some c ∧ c.handler = some .ndgUpstream ∧ c.upstream.upstream ≠ none ∧
      conf.label? [0, 0] = some c' ∧ c'.handler = none ∧ HandlerConfigured c' := by
  have hconf : httpConf (.node [] [.node [.ndgUpstreamPass (some 1)] [.node [] []]] :
      Scope (List (HttpDirective ℕ))) = some _ := rfl
  refine ⟨_, _, _, hconf, rfl, rfl, ?_, rfl, rfl, ?_⟩
  · exact (httpConf_handlerConfigured hconf (p := [0]) rfl).upstream rfl
  · exact httpConf_handlerConfigured hconf (p := [0, 0]) rfl

end NgxNdg
