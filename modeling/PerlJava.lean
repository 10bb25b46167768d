import PerlJava.Generator.Session
import PerlJava.Main
import PerlJava.Proofs.CommandLine.WrittenFiles
import PerlJava.Proofs.Compile.ArrowSubscript
import PerlJava.Proofs.Compile.AuxiliaryNames
import PerlJava.Proofs.Compile.BranchMeet
import PerlJava.Proofs.Compile.CallArguments
import PerlJava.Proofs.Compile.CompoundAssignment
import PerlJava.Proofs.Compile.ConditionTruth
import PerlJava.Proofs.Compile.DeclaredTypes
import PerlJava.Proofs.Compile.LiteralValue
import PerlJava.Proofs.Compile.PrintedTypes
import PerlJava.Proofs.Compile.RegexLiteral
import PerlJava.Proofs.Compile.SimultaneousAssignment
import PerlJava.Proofs.Compile.TracedRun
import PerlJava.Proofs.Java.Indentation
import PerlJava.Proofs.Java.IntegerLiteral
import PerlJava.Proofs.Perl.NestedParens
import PerlJava.Workload.Run
