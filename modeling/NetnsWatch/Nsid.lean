/-!
# Namespace notifications

The kernel numbers the network namespaces that it can name and reports when a number is assigned or
removed. Which namespace a report is about is known only if it came with the report; the report's
own body may name a number too, which serves for diagnosis alone.
-/

namespace NetnsWatch

/-- The number that the kernel gave a network namespace. -/
abbrev NsId := UInt32

/-- Whether a number was given or taken away. -/
inductive NsidChange where
  | assigned
  | removed
  deriving DecidableEq, Repr

/-- One report of a change. -/
structure NsidNotification where
  change : NsidChange
  /-- The number that came beside the report, if any. -/
  nsid : Option NsId
  /-- The first number that is not negative in the report's body, if any. -/
  bodyNsid : Option Int32
  deriving DecidableEq, Repr

/-- The reports of one datagram, with the number that came beside it. -/
structure NsidBatch where
  nsid : Option NsId
  notifications : List NsidNotification
  deriving DecidableEq, Repr

end NetnsWatch
