/-!
# Depths

What reads or writes a nested value calls itself for what is inside, and so gets only as deep as the
stack under it allows. How deep that is depends on the machine and on where in a program it starts; all
that reads and shows values takes it as a parameter, and no property of them rests on a number.
-/

namespace ModelServer

/-- How deep values may be nested. -/
class Depths where
  /-- In JSON that is read. -/
  reading : Nat
  /-- In an answer that is set out as JSON. -/
  showing : Nat
  /-- In settings that are read; lists and tables take their share of it. -/
  settings : Nat
  /-- What is set out can be read again. -/
  showing_le_reading : showing ≤ reading

namespace Depths

/-- The depths that a program usually starts with. -/
scoped instance usual : Depths where
  reading := 988
  showing := 492
  settings := 985
  showing_le_reading := by decide

end Depths

end ModelServer
