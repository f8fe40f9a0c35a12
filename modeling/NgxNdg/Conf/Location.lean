import NgxNdg.Conf.Slot
import NgxNdg.Filter.Model
import NgxNdg.Lib.Run

/-!
# Location blocks

The location blocks of the http modules, directive by directive. nginx creates the configurations
of a block, calls the handler of each directive in the order of the file, and merges the blocks
afterwards. The echo and the filter module register no merge callback, and the core module does
not hand the content handler down, so these stay in the block that sets them.

## Main definitions

- `HttpDirective`, `httpDirective`: a directive, and its handler
- `httpConf`: the configurations of a tree of blocks

## Design notes

What a directive gets from nginx is part of it: the upstream that `ngx_http_upstream_add` has
found or made, and the value that `ngx_http_compile_complex_value` has made, `none` for a failure.
-/

namespace NgxNdg

open Transition ScopeTree

variable {κ : Type*}

/-- `ngx_null_string`. -/
def ngxNullString : NgxStr := ⟨0, 0⟩

/-- A word of the file. The parser gives an address to the empty word, too. -/
structure ConfWord extends NgxStr where
  data_ne_zero : data ≠ 0

/-- The content handlers of the http modules. -/
inductive HttpContentHandler where
  | ndgEcho
  | ndgThread
  | ndgUpstream
  deriving DecidableEq

/-- `ngx_http_ndg_echo_loc_conf_t`. -/
structure NgxHttpNdgEchoLocConf where
  msg : NgxStr
  deriving DecidableEq

def ngxHttpNdgEchoCreateLocConf : NgxHttpNdgEchoLocConf := ⟨ngxNullString⟩

def ngxHttpNdgFilterCreateLocConf : NgxHttpNdgFilterLocConf := ⟨none, ngxNullString⟩

/-- The configurations of a location, with the `handler` of its core configuration. -/
@[ext]
structure HttpLocConfs (κ : Type*) extends LocConfs κ where
  echo : NgxHttpNdgEchoLocConf
  filter : NgxHttpNdgFilterLocConf
  handler : Option HttpContentHandler

def HttpLocConfs.create : HttpLocConfs κ where
  toLocConfs := .create
  echo := ngxHttpNdgEchoCreateLocConf
  filter := ngxHttpNdgFilterCreateLocConf
  handler := none

def HttpLocConfs.merge (prev conf : HttpLocConfs κ) : HttpLocConfs κ :=
  { conf with toLocConfs := LocConfs.merge prev.toLocConfs conf.toLocConfs }

/-- The modules whose directive is an `ngx_flag_t`. -/
inductive FlagModule where
  | hello
  | basic
  | advance
  | debug
  | variable'
  deriving DecidableEq

def FlagModule.conf : FlagModule → LocConfs κ → EnableLocConf
  | .hello, conf => conf.hello
  | .basic, conf => conf.basic
  | .advance, conf => conf.advance
  | .debug, conf => conf.debug
  | .variable', conf => conf.variable'

def FlagModule.setConf : FlagModule → EnableLocConf → LocConfs κ → LocConfs κ
  | .hello, c, conf => { conf with hello := c }
  | .basic, c, conf => { conf with basic := c }
  | .advance, c, conf => { conf with advance := c }
  | .debug, c, conf => { conf with debug := c }
  | .variable', c, conf => { conf with variable' := c }

/-- A directive of a location block, with what its handler gets. -/
inductive HttpDirective (κ : Type*) where
  /-- `ndg_hello`, `ndg_basic`, `ndg_advance`, `ndg_debug` or `ndg_variable` -/
  | ndgFlag (m : FlagModule) (on : Bool)
  | ndgThread (poolname : List UInt8)
  | ndgUpstreamPass (added : Option ℕ)
  | ndgSubrequest (uri : List UInt8)
  | ndgComplexValue (compiled : Option κ)
  | ndgEcho (msg : ConfWord)
  | ndgHeader (header : NgxKeyval)
  | ndgFooter (footer : ConfWord)

/-- `ngx_conf_set_keyval_slot`, which creates the array when it is `NULL`. -/
def ngxConfSetKeyvalSlot (kv : NgxKeyval) (headers : Option (List NgxKeyval)) :
    Option (List NgxKeyval) :=
  some (headers.getD [] ++ [kv])

def ngxHttpNdgThread (poolname : List UInt8) (conf : HttpLocConfs κ) : Option (HttpLocConfs κ) :=
  (ngxConfStrSlot none (some poolname) conf.thread.poolname).map fun poolname =>
    { conf with thread := ⟨poolname⟩, handler := some .ndgThread }

def ngxHttpNdgUpstreamPass (added : Option ℕ) (conf : HttpLocConfs κ) : Option (HttpLocConfs κ) :=
  added.map fun u =>
    { conf with
      upstream := { conf.upstream with upstream := some u }
      handler := some .ndgUpstream }

def ngxHttpNdgComplexValue (compiled : Option κ) (conf : HttpLocConfs κ) :
    Option (HttpLocConfs κ) :=
  compiled.map fun cv => { conf with complexValue := ⟨some cv⟩ }

def ngxHttpNdgEcho (msg : ConfWord) (conf : HttpLocConfs κ) : Option (HttpLocConfs κ) :=
  (ngxConfStrSlot ngxNullString msg.toNgxStr conf.echo.msg).map fun msg =>
    { conf with echo := ⟨msg⟩, handler := some .ndgEcho }

/-- nginx calls the handler of a directive; `none` when that refuses it. -/
def httpDirective (conf : HttpLocConfs κ) : HttpDirective κ → Option (HttpLocConfs κ)
  | .ndgFlag m on =>
    (ngxConfFlagSlot on (m.conf conf.toLocConfs).enable).map fun enable =>
      { conf with toLocConfs := m.setConf ⟨enable⟩ conf.toLocConfs }
  | .ndgThread poolname => ngxHttpNdgThread poolname conf
  | .ndgUpstreamPass added => ngxHttpNdgUpstreamPass added conf
  | .ndgSubrequest uri =>
    (ngxConfStrSlot none (some uri) conf.subrequest.uri).map fun uri =>
      { conf with subrequest := ⟨uri⟩ }
  | .ndgComplexValue compiled => ngxHttpNdgComplexValue compiled conf
  | .ndgEcho msg => ngxHttpNdgEcho msg conf
  | .ndgHeader header =>
    some { conf with
      filter := { conf.filter with headers := ngxConfSetKeyvalSlot header conf.filter.headers } }
  | .ndgFooter footer =>
    (ngxConfStrSlot ngxNullString footer.toNgxStr conf.filter.footer).map fun footer =>
      { conf with filter := { conf.filter with footer := footer } }

/-- The configurations of a block before the merge; `none` when nginx refuses a directive. -/
def httpLocation (block : List (HttpDirective κ)) : Option (HttpLocConfs κ) :=
  exec httpDirective .create block

/-- The configurations of an outermost location and of those in it, nested to any depth, merged
from the outside inwards. -/
def httpConf (location : Scope (List (HttpDirective κ))) : Option (Scope (HttpLocConfs κ)) :=
  (location.traverse httpLocation).map (mergeDown HttpLocConfs.merge .create)

end NgxNdg
