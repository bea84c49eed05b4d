/-
  Powers.

  Powers of natural numbers and integers are always the built-in ones, also where more is known
  about these numbers than their arithmetic.
-/

attribute [instance (high), default_instance 20000] instPowNat
