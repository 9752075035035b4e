import GridStyle.Main
import GridStyle.Token.Writer
import GridStyle.Proofs.RuleStore
import GridStyle.Proofs.Calls
import GridStyle.Proofs.Registry
import GridStyle.Proofs.TokenTree
import GridStyle.Proofs.Perform
import GridStyle.Proofs.Expansion.Step
import GridStyle.Proofs.Expansion.Lockstep
import GridStyle.Proofs.HostGrid
import GridStyle.Proofs.Generate
import GridStyle.Proofs.CellTree
import GridStyle.Proofs.CellIndependence
import GridStyle.Proofs.KeyframeStore
import GridStyle.Proofs.DefaultGrid
import GridStyle.Proofs.Expansion.Itinerary
import GridStyle.Proofs.SpecialBlocks
import GridStyle.Proofs.Conditions
import GridStyle.Proofs.Expansion.Follow
import GridStyle.Proofs.Discovery
import GridStyle.Proofs.ResolvedGrid
import GridStyle.Proofs.Expansion.Events
import GridStyle.Proofs.HostSizing
import GridStyle.Proofs.Place
import GridStyle.Proofs.PlainValue
import GridStyle.Proofs.Expansion.EventLaw
import GridStyle.Proofs.Expansion.Exchange
import GridStyle.Proofs.Exchange
import GridStyle.Proofs.Inclusion
import GridStyle.Proofs.Expansion.Arrival
import GridStyle.Proofs.Redeclaration
import GridStyle.Proofs.SecondPass
import GridStyle.Proofs.AnimationNames
import GridStyle.Proofs.BlockParts
import GridStyle.Proofs.KeyframeNames
import GridStyle.Proofs.CellNumbers
import GridStyle.Proofs.Seed
import GridStyle.Proofs.WholeNumber
import GridStyle.Proofs.Unrolling
import GridStyle.Proofs.Calc.Printing
import GridStyle.Proofs.Files.Growth
import GridStyle.Proofs.RoundTrip
import GridStyle.Proofs.Files.Pieces
import GridStyle.Proofs.Files.Saving
import GridStyle.Proofs.Files.Finding
import GridStyle.Proofs.Files.SecondSearch
import GridStyle.Proofs.Files.OutputPath
import GridStyle.Proofs.Files.Outcome
import GridStyle.Proofs.Passes
import GridStyle.Proofs.TopLevel
import GridStyle.Proofs.SelectorLists
import GridStyle.Proofs.Words
import GridStyle.Proofs.AnimationWords
import GridStyle.Proofs.AnimationLists
import GridStyle.Proofs.SequentialChoice
import GridStyle.Proofs.Files.Preparation
import GridStyle.Proofs.Files.Siblings
import GridStyle.Proofs.PassOrder
import GridStyle.Proofs.RuleLog
import GridStyle.Proofs.ValueLists
import GridStyle.Proofs.Progressions
import GridStyle.Proofs.WrittenGrid
import GridStyle.Proofs.Files.Writing
import GridStyle.Proofs.CompileCommand
import GridStyle.Proofs.ShorthandWords
import GridStyle.Proofs.ProgressionRange
import GridStyle.Proofs.TwoAxes
import GridStyle.Proofs.QuotedContent
import GridStyle.Proofs.NumberUnits
import GridStyle.Proofs.Files.PathOrder
import GridStyle.Proofs.Files.PlainDirectory
import GridStyle.Proofs.Files.TokenFiles
import GridStyle.Proofs.RandomStream
import GridStyle.Proofs.ProtectedMarks
