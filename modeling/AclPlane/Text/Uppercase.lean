/-!
Upper case, for matching a text against names written in ASCII.

The full upper case of a character may be several characters, and some characters beyond ASCII
have an ASCII upper case.  A text whose upper case leaves ASCII matches no such name, so it has
no `upper?`.

* `upperChar?` — the full upper case of a character, where it is ASCII.
* `upper?` — the full upper case of a text, where it is ASCII.
-/

namespace AclPlane

/-- The characters beyond ASCII whose full upper case is ASCII, with that upper case: sharp s,
dotless i, long s and the Latin ligatures. -/
def asciiUpperCases : List (Char × List Char) :=
  [('\u00df', ['S', 'S']), ('\u0131', ['I']), ('\u017f', ['S']),
   ('\ufb00', ['F', 'F']), ('\ufb01', ['F', 'I']), ('\ufb02', ['F', 'L']),
   ('\ufb03', ['F', 'F', 'I']), ('\ufb04', ['F', 'F', 'L']),
   ('\ufb05', ['S', 'T']), ('\ufb06', ['S', 'T'])]

/-- The full upper case of a character, where it is ASCII. -/
def upperChar? (c : Char) : Option (List Char) :=
  if c.toNat < 128 then some [c.toUpper] else asciiUpperCases.lookup c

/-- The full upper case of a text, where it is ASCII. -/
def upper? (s : String) : Option String :=
  (s.toList.mapM upperChar?).map (fun parts => String.ofList parts.flatten)

end AclPlane
