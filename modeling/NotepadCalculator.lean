import NotepadCalculator.Main
import NotepadCalculator.Proofs.AddedUnitLines
import NotepadCalculator.Proofs.AddedUnits
import NotepadCalculator.Proofs.AggregateSums
import NotepadCalculator.Proofs.AliasSearch
import NotepadCalculator.Proofs.BindingOrigins
import NotepadCalculator.Proofs.CivilDays
import NotepadCalculator.Proofs.ConversionChains
import NotepadCalculator.Proofs.DayDifferences
import NotepadCalculator.Proofs.DayWords
import NotepadCalculator.Proofs.ErrorPositions
import NotepadCalculator.Proofs.ExactAmounts
import NotepadCalculator.Proofs.ExactConversion
import NotepadCalculator.Proofs.ExtremeArguments
import NotepadCalculator.Proofs.FailedLines
import NotepadCalculator.Proofs.FilledTemplates
import NotepadCalculator.Proofs.JoinedLines
import NotepadCalculator.Proofs.KnownTags
import NotepadCalculator.Proofs.LineDepth
import NotepadCalculator.Proofs.LineReferences
import NotepadCalculator.Proofs.NestingDepth
import NotepadCalculator.Proofs.OpenedFiles
import NotepadCalculator.Proofs.ParsedTrees
import NotepadCalculator.Proofs.ParserProgress
import NotepadCalculator.Proofs.PercentagePhrases
import NotepadCalculator.Proofs.PrecisionDisplay
import NotepadCalculator.Proofs.PrintedExpressions
import NotepadCalculator.Proofs.QuietMode
import NotepadCalculator.Proofs.RecordLines
import NotepadCalculator.Proofs.RecordedReads
import NotepadCalculator.Proofs.RegainedAmounts
import NotepadCalculator.Proofs.RespelledUnits
import NotepadCalculator.Proofs.RespacedLines
import NotepadCalculator.Proofs.ResultTags
import NotepadCalculator.Proofs.RoundedAmounts
import NotepadCalculator.Proofs.SavedSessions
import NotepadCalculator.Proofs.ShiftedMoments
import NotepadCalculator.Proofs.ShownAmounts
import NotepadCalculator.Proofs.UnitArithmetic
import NotepadCalculator.Proofs.UnitConversion
import NotepadCalculator.Proofs.UnitFactors
import NotepadCalculator.Proofs.UnlikeUnits
import NotepadCalculator.Proofs.WholeDoubles
import NotepadCalculator.Proofs.WrappedLines
import NotepadCalculator.Proofs.WrittenMoments
