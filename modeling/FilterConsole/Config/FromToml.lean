import FilterConsole.Config.Basic
import FilterConsole.Toml.Basic

/-! The configuration in a TOML document. A setting that is absent has its default, whatever else the document holds;
a setting of another type refuses the document. -/

namespace FilterConsole

namespace Toml

variable {α : Type}

mutual

/-- Numbers have a value, and integers at most 128 bits, here and in everything inside. -/
def isReadable : Toml → Bool
  | .integer value =>
    value.any fun i => -0x80000000000000000000000000000000 ≤ i && i < 0x100000000000000000000000000000000
  | .decimal value => value.isSome
  | .array items | .elements items => areReadable items
  | .table _ members => membersReadable members
  | _ => true

def areReadable : List Toml → Bool
  | [] => true
  | v :: r => isReadable v && areReadable r

def membersReadable : List (String × Toml) → Bool
  | [] => true
  | (_, v) :: r => isReadable v && membersReadable r

end

def text? : Toml → Option String
  | .text s => some s
  | _ => none

def boolean? : Toml → Option Bool
  | .boolean b => some b
  | _ => none

def natBelow? (bound : Nat) : Toml → Option Nat
  | .integer (some i) => if 0 ≤ i && i < bound then some i.toNat else none
  | _ => none

def word64? (v : Toml) : Option UInt64 := (v.natBelow? 0x10000000000000000).map .ofNat

def word32? (v : Toml) : Option UInt32 := (v.natBelow? 0x100000000).map .ofNat

/-- A choice by its name, given as a text or as the only key of a table with nothing under it. -/
def choice? (choices : List (String × α)) : Toml → Option α
  | .text name => choices.lookup name
  | .table _ [(name, .table _ [])] => choices.lookup name
  | .table _ [(name, .array [])] => choices.lookup name
  | _ => none

/-- The settings of a table under their names; what else it holds has to be readable. -/
def namedFields? (names : List String) (members : Members) : Option (List (Option Toml)) :=
  if membersReadable (members.filter fun e => !names.contains e.1) then
    some (names.map fun name => members.lookup name)
  else none

/-- The settings of a section. An array gives them at their places and may be shorter or longer; an instant gives
none. -/
def fields? (names : List String) : Toml → Option (List (Option Toml))
  | .table _ members => namedFields? names members
  | .array items | .elements items => some (((items.take names.length).map some).rightpad names.length none)
  | .instant _ => some (names.map fun _ => none)
  | _ => none

def orElse? (read? : Toml → Option α) (absent : α) : Option Toml → Option α
  | none => some absent
  | some v => read? v

end Toml

namespace Config

open Toml

def Api.ofToml? (v : Toml) : Option Api := do
  match ← v.fields? ["base_url", "api_prefix", "request_timeout_secs", "token"] with
  | [baseUrl, pathPrefix, timeoutSecs, token] =>
    let default : Api := {}
    return {
      baseUrl := ← orElse? text? default.baseUrl baseUrl
      pathPrefix := ← orElse? text? default.pathPrefix pathPrefix
      timeoutSecs := ← orElse? word64? default.timeoutSecs timeoutSecs
      token := ← orElse? (fun v => v.text?.map some) default.token token }
  | _ => none

def Watcher.ofToml? (v : Toml) : Option Watcher := do
  match ← v.fields? ["poll_interval_ms", "max_polls"] with
  | [intervalMs, maxPolls] =>
    let default : Watcher := {}
    return {
      intervalMs := ← orElse? word64? default.intervalMs intervalMs
      maxPolls := ← orElse? word32? default.maxPolls maxPolls }
  | _ => none

def sortFields : List (String × SortField) := [SortField.count, .updatedAt].map fun f => (f.name, f)

def sortDirections : List (String × SortDirection) := [SortDirection.asc, .desc].map fun d => (d.name, d)

def logFormats : List (String × LogFormat) := [LogFormat.text, .json].map fun f => (f.name, f)

def Presentation.ofToml? (v : Toml) : Option Presentation := do
  match ← v.fields? ["login_on_any_failure", "sort_field", "sort_direction"] with
  | [loginOnAnyFailure, sortField, sortDirection] =>
    let default : Presentation := {}
    return {
      loginOnAnyFailure := ← orElse? boolean? default.loginOnAnyFailure loginOnAnyFailure
      sortField := ← orElse? (choice? sortFields) default.sortField sortField
      sortDirection := ← orElse? (choice? sortDirections) default.sortDirection sortDirection }
  | _ => none

def Logging.ofToml? (v : Toml) : Option Logging := do
  match ← v.fields? ["level", "format"] with
  | [level, format] =>
    let default : Logging := {}
    return {
      level := ← orElse? text? default.level level
      format := ← orElse? (choice? logFormats) default.format format }
  | _ => none

def ofToml? (root : Members) : Option Config := do
  match ← namedFields? ["api", "watcher", "presentation", "logging"] root with
  | [api, watcher, presentation, logging] =>
    return {
      api := ← orElse? Api.ofToml? {} api
      watcher := ← orElse? Watcher.ofToml? {} watcher
      presentation := ← orElse? Presentation.ofToml? {} presentation
      logging := ← orElse? Logging.ofToml? {} logging }
  | _ => none

end Config

end FilterConsole
