import DeviceTelemetry.Schema.Basic

/-!
# Errors of metric operations
-/

set_option autoImplicit false

namespace DeviceTelemetry

inductive BuiltinGroup where
  | connectivity
  | sync
  | reliability
  | battery
deriving DecidableEq, Repr

def BuiltinGroup.name : BuiltinGroup → String
  | connectivity => "connectivity"
  | sync => "sync"
  | reliability => "reliability"
  | battery => "battery"

inductive ParameterFault where
  | emptyOutput
  | notUserSession (session : Nat)
  | unknownSession (session : Nat)
  | groupDisabled (group : BuiltinGroup)
deriving DecidableEq, Repr

def ParameterFault.message : ParameterFault → String
  | emptyOutput => "output buffer is empty"
  | notUserSession session => s!"session {session} is not a user session"
  | unknownSession session => s!"unknown session {session}"
  | groupDisabled group => s!"built-in {group.name} metrics are not enabled"

inductive MetricError where
  | keyNotFound (key : Nat)
  | typeMismatch (key : Nat) (expected actual : MetricKind)
  | badParameter (fault : ParameterFault)
  | noChange (key : Nat)
  | storageTooSmall (needed available : Nat)
  | outOfSpace (session : Nat)
deriving DecidableEq, Repr

def MetricError.message : MetricError → String
  | keyNotFound key => s!"metric key {key} not found"
  | typeMismatch key expected actual =>
    s!"metric key {key} is {actual.title}, operation expects {expected.title}"
  | badParameter fault => s!"bad parameter: {fault.message}"
  | noChange key => s!"metric key {key} already in requested state"
  | storageTooSmall needed available =>
    s!"storage too small: need {needed} bytes, have {available}"
  | outOfSpace session => s!"out of storage space serializing session {session}"

end DeviceTelemetry
