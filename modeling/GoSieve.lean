import GoSieve.Bytes
import GoSieve.Utf8
import GoSieve.Unicode
import GoSieve.Date
import GoSieve.Calendar
import GoSieve.Match
import GoSieve.Comparators
import GoSieve.Runtime
import GoSieve.Tests
import GoSieve.CheckInvariant
import GoSieve.Combinators
import GoSieve.AddressSyntax
import GoSieve.Commands
import GoSieve.HeaderReads
import GoSieve.AddressTest
import GoSieve.TestLoops
import GoSieve.LoadSpec
import GoSieve.Load
import GoSieve.DateParts
import GoSieve.AddressParts
import GoSieve.Overlay
import GoSieve.Panic
import GoSieve.Requires
import GoSieve.Effects
import GoSieve.ValuePatterns
import GoSieve.EnvelopeTest
