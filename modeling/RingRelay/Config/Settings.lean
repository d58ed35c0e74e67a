import RingRelay.Relay.Basic
/- The settings of the program and their defaults. -/
namespace RingRelay

structure BufferSettings where
  /-- The capacity of the ring in bytes. Zero is not allowed in the end. -/
  capacity : Nat := 65536
  deriving DecidableEq, Repr

structure LoggingSettings where
  enabled : Bool := true
  /-- Log to the standard error stream. -/
  console : Bool := true
  /-- Log to a file in `directory`. -/
  file : Bool := false
  /-- Which events to log, as a list of filter directives. -/
  level : String := "info"
  /-- Where log files go; if absent, to a directory for temporary files. -/
  directory : Option String := none
  deriving DecidableEq, Repr

structure Settings where
  buffer : BufferSettings := {}
  logging : LoggingSettings := {}
  relay : RelayOptions := {}
  deriving DecidableEq, Repr

end RingRelay
