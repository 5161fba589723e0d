/-!
# Powers

A power of a natural number or of an integer is the one of the core library, also where the
instance that a monoid has for its powers is in scope.
-/

attribute [instance (high), default_instance (high + 1)] instPowNat
