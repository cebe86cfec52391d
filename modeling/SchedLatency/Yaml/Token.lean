namespace SchedLatency.Yaml

inductive Token where
  | documentStart
  | documentEnd
  | version
  | tagHandle (handle meaning : String)
  | blockSequence
  | blockMapping
  | blockEnd
  | flowSequence
  | flowSequenceEnd
  | flowMapping
  | flowMappingEnd
  | entry
  | flowEntry
  | key
  | value
  | alias (name : String)
  | anchor (name : String)
  | tag (handle suffix : String)
  /-- A scalar, and whether it is plain, that is neither quoted nor a block. -/
  | scalar (plain : Bool) (text : String)
  deriving DecidableEq, Repr

end SchedLatency.Yaml
