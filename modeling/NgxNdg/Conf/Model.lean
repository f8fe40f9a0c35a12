import Mathlib.Data.UInt
import NgxNdg.Lib.ScopeTree

/-!
# Location configurations

Nine modules keep a configuration for each location, create it unset, fill it in with their one
directive, and register a callback that merges it with the one of the enclosing location. nginx
creates the configurations while it reads the file and merges them afterwards, from the outside
inwards. None of the directives may stand outside of a location.

A string whose `data` is `NULL` is `none`. A compiled complex value is an element of `κ`, and an
upstream is known by its number.

## Main definitions

- `LocDirectives`: the directives of a location block
- `LocConfs`: the configurations of a location, with `LocConfs.create`, `LocConfs.parse` and
  `LocConfs.merge`
-/

namespace NgxNdg

/-- `NGX_CONF_UNSET`. -/
def ngxConfUnset : ℤ := -1

/-- `NGX_CONF_UNSET_MSEC` and `NGX_CONF_UNSET_SIZE`, both `-1` as an unsigned number. -/
def ngxConfUnsetUint : UInt64 := -1

/-- The macros `ngx_conf_merge_value`, `ngx_conf_merge_msec_value`, `ngx_conf_merge_size_value`
and `ngx_conf_merge_str_value`, which differ in what they take for unset. -/
def ngxConfMerge {α : Type*} [DecidableEq α] (unset conf prev default : α) : α :=
  if conf = unset then if prev = unset then default else prev else conf

/-- The configuration of a module whose directive is an `ngx_flag_t`. -/
structure EnableLocConf where
  enable : ℤ
  deriving DecidableEq

def enableCreateLocConf : EnableLocConf := ⟨ngxConfUnset⟩

def enableMergeLocConf (default : ℤ) (prev conf : EnableLocConf) : EnableLocConf :=
  ⟨ngxConfMerge ngxConfUnset conf.enable prev.enable default⟩

/-- The flag of `on` and of `off`. -/
def ngxFlag (on : Bool) : ℤ := if on then 1 else 0

/-- `ngx_conf_set_flag_slot`. -/
def ngxConfSetFlagSlot (on : Bool) (conf : EnableLocConf) : EnableLocConf :=
  { conf with enable := ngxFlag on }

def ngxHttpNdgHelloCreateLocConf : EnableLocConf := enableCreateLocConf
def ngxHttpNdgHelloMergeLocConf : EnableLocConf → EnableLocConf → EnableLocConf :=
  enableMergeLocConf 0

def ngxHttpNdgBasicCreateLocConf : EnableLocConf := enableCreateLocConf
def ngxHttpNdgBasicMergeLocConf : EnableLocConf → EnableLocConf → EnableLocConf :=
  enableMergeLocConf 0

def ngxHttpNdgAdvanceCreateLocConf : EnableLocConf := enableCreateLocConf
def ngxHttpNdgAdvanceMergeLocConf : EnableLocConf → EnableLocConf → EnableLocConf :=
  enableMergeLocConf 0

def ngxHttpNdgDebugCreateLocConf : EnableLocConf := enableCreateLocConf
def ngxHttpNdgDebugMergeLocConf : EnableLocConf → EnableLocConf → EnableLocConf :=
  enableMergeLocConf 0

def ngxHttpNdgVariableCreateLocConf : EnableLocConf := enableCreateLocConf
def ngxHttpNdgVariableMergeLocConf : EnableLocConf → EnableLocConf → EnableLocConf :=
  enableMergeLocConf 0

/-- `ngx_http_ndg_thread_loc_conf_t`. -/
structure NgxHttpNdgThreadLocConf where
  poolname : Option (List UInt8)
  deriving DecidableEq

def ngxHttpNdgThreadCreateLocConf : NgxHttpNdgThreadLocConf := ⟨none⟩

/-- The string `default`. -/
def defaultPoolname : List UInt8 := [100, 101, 102, 97, 117, 108, 116]

def ngxHttpNdgThreadMergeLocConf (prev conf : NgxHttpNdgThreadLocConf) :
    NgxHttpNdgThreadLocConf :=
  ⟨ngxConfMerge none conf.poolname prev.poolname (some defaultPoolname)⟩

/-- `ngx_http_ndg_upstream_loc_conf_t`: the fields of its `upstream` that the module sets. -/
structure NgxHttpNdgUpstreamLocConf where
  connectTimeout : UInt64
  sendTimeout : UInt64
  readTimeout : UInt64
  bufferSize : UInt64
  upstream : Option ℕ
  deriving DecidableEq

def ngxHttpNdgUpstreamCreateLocConf : NgxHttpNdgUpstreamLocConf where
  connectTimeout := ngxConfUnsetUint
  sendTimeout := ngxConfUnsetUint
  readTimeout := ngxConfUnsetUint
  bufferSize := ngxConfUnsetUint
  upstream := none

def ngxHttpNdgUpstreamMergeLocConf (prev conf : NgxHttpNdgUpstreamLocConf) :
    NgxHttpNdgUpstreamLocConf :=
  { conf with
    connectTimeout := ngxConfMerge ngxConfUnsetUint conf.connectTimeout prev.connectTimeout 1000
    sendTimeout := ngxConfMerge ngxConfUnsetUint conf.sendTimeout prev.sendTimeout 1000
    readTimeout := ngxConfMerge ngxConfUnsetUint conf.readTimeout prev.readTimeout 1000
    bufferSize := ngxConfMerge ngxConfUnsetUint conf.bufferSize prev.bufferSize 4096 }

/-- `ngx_http_ndg_subrequest_loc_conf_t`. -/
structure NgxHttpNdgSubrequestLocConf where
  uri : Option (List UInt8)
  deriving DecidableEq

def ngxHttpNdgSubrequestCreateLocConf : NgxHttpNdgSubrequestLocConf := ⟨none⟩

/-- The merge of the uri is commented out in the callback. -/
def ngxHttpNdgSubrequestMergeLocConf (_prev conf : NgxHttpNdgSubrequestLocConf) :
    NgxHttpNdgSubrequestLocConf := conf

/-- `ngx_http_ndg_complex_value_loc_conf_t`. -/
structure NgxHttpNdgComplexValueLocConf (κ : Type*) where
  cv : Option κ
  deriving DecidableEq

variable {κ : Type*}

def ngxHttpNdgComplexValueCreateLocConf : NgxHttpNdgComplexValueLocConf κ := ⟨none⟩

/-- The callback does nothing. -/
def ngxHttpNdgComplexValueMergeLocConf (_prev conf : NgxHttpNdgComplexValueLocConf κ) :
    NgxHttpNdgComplexValueLocConf κ := conf

/-- What a location block sets. Each directive may stand in it once. -/
structure LocDirectives (κ : Type*) where
  ndgHello : Option Bool
  ndgBasic : Option Bool
  ndgAdvance : Option Bool
  ndgDebug : Option Bool
  ndgVariable : Option Bool
  ndgThread : Option (List UInt8)
  ndgUpstreamPass : Option ℕ
  ndgSubrequest : Option (List UInt8)
  ndgComplexValue : Option κ
  deriving DecidableEq

/-- A block without directives of the modules. -/
def LocDirectives.empty : LocDirectives κ :=
  ⟨none, none, none, none, none, none, none, none, none⟩

/-- The configurations that the nine modules have for a location. -/
structure LocConfs (κ : Type*) where
  hello : EnableLocConf
  basic : EnableLocConf
  advance : EnableLocConf
  debug : EnableLocConf
  variable' : EnableLocConf
  thread : NgxHttpNdgThreadLocConf
  upstream : NgxHttpNdgUpstreamLocConf
  subrequest : NgxHttpNdgSubrequestLocConf
  complexValue : NgxHttpNdgComplexValueLocConf κ
  deriving DecidableEq

/-- nginx creates the configurations of a block. -/
def LocConfs.create : LocConfs κ where
  hello := ngxHttpNdgHelloCreateLocConf
  basic := ngxHttpNdgBasicCreateLocConf
  advance := ngxHttpNdgAdvanceCreateLocConf
  debug := ngxHttpNdgDebugCreateLocConf
  variable' := ngxHttpNdgVariableCreateLocConf
  thread := ngxHttpNdgThreadCreateLocConf
  upstream := ngxHttpNdgUpstreamCreateLocConf
  subrequest := ngxHttpNdgSubrequestCreateLocConf
  complexValue := ngxHttpNdgComplexValueCreateLocConf

/-- The flag directive of a block, if it stands there, sets its slot. -/
def setFlag (directive : Option Bool) (conf : EnableLocConf) : EnableLocConf :=
  directive.elim conf fun on => ngxConfSetFlagSlot on conf

/-- nginx creates the configurations of a block and handles its directives. -/
def LocConfs.parse (d : LocDirectives κ) : LocConfs κ :=
  let conf := LocConfs.create
  { hello := setFlag d.ndgHello conf.hello
    basic := setFlag d.ndgBasic conf.basic
    advance := setFlag d.ndgAdvance conf.advance
    debug := setFlag d.ndgDebug conf.debug
    variable' := setFlag d.ndgVariable conf.variable'
    thread := d.ndgThread.elim conf.thread fun name => { conf.thread with poolname := some name }
    upstream := d.ndgUpstreamPass.elim conf.upstream fun u =>
      { conf.upstream with upstream := some u }
    subrequest := d.ndgSubrequest.elim conf.subrequest fun uri =>
      { conf.subrequest with uri := some uri }
    complexValue := d.ndgComplexValue.elim conf.complexValue fun cv =>
      { conf.complexValue with cv := some cv } }

theorem LocConfs.parse_poolname (d : LocDirectives κ) :
    (LocConfs.parse d).thread.poolname = d.ndgThread := by
  unfold LocConfs.parse
  cases d.ndgThread <;> rfl

theorem LocConfs.parse_upstream (d : LocDirectives κ) :
    (LocConfs.parse d).upstream.upstream = d.ndgUpstreamPass := by
  unfold LocConfs.parse
  cases d.ndgUpstreamPass <;> rfl

theorem LocConfs.parse_uri (d : LocDirectives κ) :
    (LocConfs.parse d).subrequest.uri = d.ndgSubrequest := by
  unfold LocConfs.parse
  cases d.ndgSubrequest <;> rfl

theorem LocConfs.parse_cv (d : LocDirectives κ) :
    (LocConfs.parse d).complexValue.cv = d.ndgComplexValue := by
  unfold LocConfs.parse
  cases d.ndgComplexValue <;> rfl

/-- nginx calls the merge callbacks of the modules. -/
def LocConfs.merge (prev conf : LocConfs κ) : LocConfs κ where
  hello := ngxHttpNdgHelloMergeLocConf prev.hello conf.hello
  basic := ngxHttpNdgBasicMergeLocConf prev.basic conf.basic
  advance := ngxHttpNdgAdvanceMergeLocConf prev.advance conf.advance
  debug := ngxHttpNdgDebugMergeLocConf prev.debug conf.debug
  variable' := ngxHttpNdgVariableMergeLocConf prev.variable' conf.variable'
  thread := ngxHttpNdgThreadMergeLocConf prev.thread conf.thread
  upstream := ngxHttpNdgUpstreamMergeLocConf prev.upstream conf.upstream
  subrequest := ngxHttpNdgSubrequestMergeLocConf prev.subrequest conf.subrequest
  complexValue := ngxHttpNdgComplexValueMergeLocConf prev.complexValue conf.complexValue

theorem ngxConfMerge_default {α : Type*} [DecidableEq α] (unset conf default : α) :
    ngxConfMerge unset conf (ngxConfMerge unset unset unset default) default =
      ngxConfMerge unset conf unset default := by
  unfold ngxConfMerge
  rw [if_pos rfl, if_pos rfl, ite_self]

/-- A block without directives hands down no more than an unset configuration does, so that the
server and the `http` block around the outermost locations may be left out. -/
theorem LocConfs.merge_merge_create (conf : LocConfs κ) :
    LocConfs.merge (LocConfs.merge .create .create) conf = LocConfs.merge .create conf := by
  have hflag (default : ℤ) (conf : EnableLocConf) :
      enableMergeLocConf default (enableMergeLocConf default enableCreateLocConf
        enableCreateLocConf) conf = enableMergeLocConf default enableCreateLocConf conf :=
    congrArg EnableLocConf.mk (ngxConfMerge_default ngxConfUnset conf.enable default)
  have hthread : ngxHttpNdgThreadMergeLocConf (ngxHttpNdgThreadMergeLocConf
      ngxHttpNdgThreadCreateLocConf ngxHttpNdgThreadCreateLocConf) conf.thread =
      ngxHttpNdgThreadMergeLocConf ngxHttpNdgThreadCreateLocConf conf.thread :=
    congrArg NgxHttpNdgThreadLocConf.mk
      (ngxConfMerge_default none conf.thread.poolname (some defaultPoolname))
  have hupstream : ngxHttpNdgUpstreamMergeLocConf (ngxHttpNdgUpstreamMergeLocConf
      ngxHttpNdgUpstreamCreateLocConf ngxHttpNdgUpstreamCreateLocConf) conf.upstream =
      ngxHttpNdgUpstreamMergeLocConf ngxHttpNdgUpstreamCreateLocConf conf.upstream := by
    simp only [ngxHttpNdgUpstreamMergeLocConf, ngxHttpNdgUpstreamCreateLocConf,
      ngxConfMerge_default]
  exact LocConfs.mk.injEq .. |>.mpr ⟨hflag 0 conf.hello, hflag 0 conf.basic, hflag 0 conf.advance,
    hflag 0 conf.debug, hflag 0 conf.variable', hthread, hupstream, rfl, rfl⟩

open ScopeTree in
/-- The configurations of an outermost location and of those in it, nested to any depth. -/
def mergeLocations (location : Scope (LocDirectives κ)) : Scope (LocConfs κ) :=
  mergeDown (fun prev d => LocConfs.merge prev (LocConfs.parse d)) LocConfs.create location

end NgxNdg
