namespace SimpleSSD.BIL

inductive BIOType where
  | read
  | write
  | flush
  | trim
  | num
  deriving DecidableEq, Repr

structure BIO where
  id : UInt64
  type : BIOType
  offset : UInt64
  length : UInt64
  deriving DecidableEq, Repr

end SimpleSSD.BIL
